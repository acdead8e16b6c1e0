import LineShell.Main
import LineShell.Proofs.Pipeline.Joined
import LineShell.Proofs.Pipeline.QuotedStart
import LineShell.Proofs.Pipeline.Spelling
import LineShell.Proofs.Shell.DataFlow
import LineShell.Proofs.Shell.Session
import LineShell.Proofs.Shell.Stalling
import LineShell.Proofs.Shell.Trimming
import LineShell.Proofs.Shell.WorkingDirectory
import LineShell.Proofs.Token.Display
import LineShell.Proofs.Token.Lexeme
import LineShell.Proofs.Token.SpaceRuns
import LineShell.Proofs.Completion.Listing
import LineShell.Proofs.Completion.Coverage
import LineShell.Proofs.Completion.Insertion
import LineShell.Proofs.FileSystem.Growth
import LineShell.Proofs.FileSystem.Opening
import LineShell.Proofs.Machine.Files
import LineShell.Proofs.Shell.FileContents
import LineShell.Proofs.Completion.Candidates
import LineShell.Proofs.Completion.Repeated
import LineShell.Proofs.Shell.ProgramSearch
import LineShell.Proofs.Shell.Spacing
import LineShell.Proofs.Text.Numerals
import LineShell.Proofs.History.Numbering
import LineShell.Proofs.Shell.Prescription
import LineShell.Proofs.Shell.NextStage
import LineShell.Proofs.Shell.LostWrites
import LineShell.Proofs.Shell.Operands
import LineShell.Proofs.Shell.Effects
import LineShell.Proofs.Shell.HistoryListing
import LineShell.Proofs.Completion.CommonStarts
import LineShell.Proofs.Process.WaitStatuses
import LineShell.Proofs.Shell.SavedHistory
import LineShell.Proofs.Token.OpenQuotes
