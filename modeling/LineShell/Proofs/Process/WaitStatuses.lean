import LineShell.ExitCode

/-!
# The codes of wait statuses

The system hands out the status of a child as a signed number of thirty-two bits, any of which may
be set. The exit code depends on two fields of it alone: the low seven bits tell how the child
ended, and bits 8 to 15 hold the code of a normal exit. The bit for a core dump lies between
them.
-/

namespace LineShell

namespace WaitStatus

/-- The status as the signed number that the system hands out. -/
def value (s : WaitStatus) : Int := s.word.toInt

/-- The status with the other value of the bit for a core dump. -/
def flipCore (s : WaitStatus) : WaitStatus := ⟨s.word ^^^ 0x80#32⟩

/-- The exit code that the two fields of a status stand for. -/
inductive HasCode (value : Int) : Int → Prop where
  /-- The child exited normally, and bits 8 to 15 are its code. -/
  | exited (low : value % 128 = 0) : HasCode value (value / 256 % 256)
  /-- A signal ended the child. -/
  | signalled (low : 1 ≤ value % 128 ∧ value % 128 ≤ 126) : HasCode value (128 + value % 128)
  /-- The child has not ended. -/
  | unended (low : value % 128 = 127) : HasCode value (-1)

/-! ## The two fields -/

/-- The signed number and the word agree in their low sixteen bits. -/
theorem value_emod (s : WaitStatus) : s.value % 65536 = s.word.toNat % 65536 := by
  have hbound := s.word.isLt
  rw [value, BitVec.toInt_eq_toNat_cond]
  split <;> omega

/-- How a child ended is told by the low seven bits. -/
theorem ending_eq (s : WaitStatus) : (s.ending : Int) = s.value % 128 := by
  have hmask : s.ending = s.word.toNat % 128 := by
    rw [ending, BitVec.toNat_and]
    exact Nat.and_two_pow_sub_one_eq_mod _ 7
  have hvalue := s.value_emod
  omega

/-- The code of a normal exit is in bits 8 to 15. -/
theorem exitField_eq (s : WaitStatus) :
    (((s.word >>> 8) &&& 0xFF#32).toNat : Int) = s.value / 256 % 256 := by
  have hmask : ((s.word >>> 8) &&& 0xFF#32).toNat = s.word.toNat / 256 % 256 := by
    rw [BitVec.toNat_and, BitVec.toNat_ushiftRight, Nat.shiftRight_eq_div_pow]
    exact Nat.and_two_pow_sub_one_eq_mod _ 8
  have hvalue := s.value_emod
  omega

/-- A core dump is seen only of a child that a signal ended. -/
theorem dumpedCore_eq_false {s : WaitStatus} (h : s.signal? = none) : s.dumpedCore = false := by
  rw [dumpedCore, h, Option.isSome_none, Bool.false_and]

/-! ## The code -/

/-- The exit code is what the two fields stand for. -/
theorem hasCode_exitCode (s : WaitStatus) : HasCode s.value s.exitCode := by
  have hending := s.ending_eq
  unfold exitCode
  by_cases hzero : s.ending = 0
  · have hcode : s.exitStatus? = some ((s.word >>> 8) &&& 0xFF#32).toNat := if_pos hzero
    simp only [hcode, exitField_eq]
    exact .exited (by omega)
  · have hcode : s.exitStatus? = none := if_neg hzero
    by_cases hall : s.ending = 127
    · have hsignal : s.signal? = none := if_neg (by omega)
      simp only [hcode, hsignal, dumpedCore_eq_false hsignal]
      exact .unended (by omega)
    · have hsignal : s.signal? = some s.ending := if_pos (by omega)
      simp only [hcode, hsignal, hending]
      exact .signalled (by omega)

namespace HasCode

variable {value other code otherCode : Int}

/-- A code is -1 or fits into eight bits. -/
theorem bounds (h : HasCode value code) : -1 ≤ code ∧ code ≤ 255 := by
  cases h <;> omega

/-- The code zero is that of a normal exit, and nothing else. -/
theorem eq_zero_iff (h : HasCode value code) :
    code = 0 ↔ value % 128 = 0 ∧ value / 256 % 256 = 0 := by
  cases h <;> omega

/-- The code depends on the two fields alone. -/
theorem unique (h : HasCode value code) (hother : HasCode other otherCode)
    (hlow : other % 128 = value % 128) (hhigh : other / 256 % 256 = value / 256 % 256) :
    otherCode = code := by
  cases h <;> cases hother <;> omega

end HasCode

/-- The bit for a core dump is in neither of the two fields. -/
theorem exitCode_flipCore (s : WaitStatus) : s.flipCore.exitCode = s.exitCode := by
  have hlow : s.flipCore.word &&& 0x7F#32 = s.word &&& 0x7F#32 := by
    have hmasks : ∀ i (hi : i < 32), (0x7F#32)[i] = true → (0x80#32)[i] = false := by decide
    refine BitVec.eq_of_getElem_eq fun i hi => ?_
    cases hmask : (0x7F#32)[i] with
    | false => simp only [BitVec.getElem_and, hmask, Bool.and_false]
    | true => simp only [flipCore, BitVec.getElem_and, BitVec.getElem_xor, hmasks i hi hmask,
        Bool.xor_false]
  have hhigh : s.flipCore.word >>> 8 = s.word >>> 8 := by
    have hmask : 0x80#32 >>> 8 = 0#32 := by decide
    rw [flipCore, BitVec.ushiftRight_xor_distrib, hmask, BitVec.xor_zero]
  refine s.hasCode_exitCode.unique s.flipCore.hasCode_exitCode ?_ ?_
  · rw [← ending_eq, ← ending_eq, ending, hlow, ending]
  · rw [← exitField_eq, ← exitField_eq, hhigh]

/-- The code of a status is in bits 8 to 15 after a normal exit, which the low seven bits tell by
being zero. It is 128 more than the low seven bits when these are the number of a signal, and -1
when all of them are set. So every code is -1 or fits into eight bits, it is zero only after a
normal exit with this code, and the bit for a core dump makes no difference to it. A core dump
without a signal does not occur. -/
theorem exitCode_read (s : WaitStatus) :
    HasCode s.value s.exitCode ∧ (-1 ≤ s.exitCode ∧ s.exitCode ≤ 255) ∧
      (s.exitCode = 0 ↔ s.value % 128 = 0 ∧ s.value / 256 % 256 = 0) ∧
      s.flipCore.exitCode = s.exitCode ∧
      ¬(s.exitStatus? = none ∧ s.signal? = none ∧ s.dumpedCore = true) := by
  have hcode := s.hasCode_exitCode
  refine ⟨hcode, hcode.bounds, hcode.eq_zero_iff, s.exitCode_flipCore, ?_⟩
  rintro ⟨-, hsignal, hdumped⟩
  rw [dumpedCore_eq_false hsignal] at hdumped
  cases hdumped

/-- A negative status: signal 11 ended the child, which left a core dump. -/
example : (ofInt (-117)).value = -117 ∧ (ofInt (-117)).dumpedCore = true ∧
    (ofInt (-117)).exitCode = 139 := by decide

end WaitStatus

end LineShell
