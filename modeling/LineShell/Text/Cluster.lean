import LineShell.Text.Cluster.Kind

/-!
# Clusters of characters

A cluster is what a reader takes for one character. Whether a character continues the cluster
before it depends on the character right before it and on what the cluster waits for: the other
half of a flag, a pictograph behind a joiner, a consonant behind a linker.
-/

namespace LineShell.Text

/-- What a cluster waits for at its end. -/
inductive ClusterDemand where
  | nothing
  /-- Half a flag, which another half completes. -/
  | secondHalf
  /-- A pictograph with its marks, to which a joiner can join another one. -/
  | pictureJoiner
  /-- A pictograph with its marks and a joiner. -/
  | picture
  /-- A consonant with its marks, to which a linker can link another one. -/
  | consonantLinker
  /-- A consonant with its marks, a linker among them. -/
  | consonant
  deriving DecidableEq, Repr

namespace ClusterDemand

/-- What the cluster waits for after one more character. -/
def after (demand : ClusterDemand) (kind : ClusterKind) : ClusterDemand :=
  match kind, demand with
  | .halfFlag, secondHalf => nothing
  | .halfFlag, _ => secondHalf
  | .pictograph, _ => pictureJoiner
  | .consonant, _ => consonantLinker
  | .mark, pictureJoiner | .linker, pictureJoiner | .nonJoiner, pictureJoiner => pictureJoiner
  | .joiner, pictureJoiner => picture
  | .linker, consonantLinker => consonant
  | .mark, consonantLinker | .joiner, consonantLinker => consonantLinker
  | .mark, consonant | .linker, consonant | .joiner, consonant => consonant
  | _, _ => nothing

/-- Whether a character is what the cluster waits for. -/
def isMetBy : ClusterDemand → ClusterKind → Bool
  | secondHalf, .halfFlag | picture, .pictograph | consonant, .consonant => true
  | _, _ => false

end ClusterDemand

/-- A place behind some characters: the kind of the last one and what its cluster waits for. -/
structure ClusterPlace where
  last : ClusterKind
  demand : ClusterDemand
  deriving DecidableEq, Repr

namespace ClusterPlace

/-- The place before the first character, where a new cluster begins as it does behind a line. -/
def start : ClusterPlace := ⟨.lineFeed, .nothing⟩

/-- The place behind one more character. -/
def after (place : ClusterPlace) (kind : ClusterKind) : ClusterPlace :=
  ⟨kind, place.demand.after kind⟩

/-- Whether a character at a place continues the cluster before it. -/
def joins (place : ClusterPlace) (kind : ClusterKind) : Bool :=
  if place.last.standsAlone || kind.standsAlone then
    place.last = .carriageReturn && kind = .lineFeed
  else
    kind.follows || place.last = .prepend || place.last.sharesSyllable kind ||
      place.demand.isMetBy kind

end ClusterPlace

end LineShell.Text
