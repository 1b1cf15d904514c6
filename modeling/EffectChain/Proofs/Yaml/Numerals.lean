import EffectChain.Proofs.Yaml.RoundTrip
import EffectChain.Yaml.Library

/-!
# Scalars that are written

A truth value is written as one of two words, and a number by its decimal digits, without zeros in
front. Both are words, and are read as what they were (`bool_ofBool`, `word_ofWord`).
-/

namespace EffectChain.Yaml

/-! ## Decimal digits -/

theorem digit?_of_isDigit {c : Char} (h : c.isDigit = true) :
    digit? 10 c = some (c.toNat - '0'.toNat) := by
  simp only [Char.isDigit, Bool.and_eq_true, decide_eq_true_eq] at h
  have hlt : c.toNat - '0'.toNat < 10 := by
    have hle : c.toNat ≤ '9'.toNat := UInt32.le_iff_toNat_le.mp h.2
    have hzero : '0'.toNat = 48 := rfl
    have hnine : '9'.toNat = 57 := rfl
    omega
  rw [digit?, hexValue?, if_pos ⟨h.1, h.2⟩, Option.filter, if_pos (decide_eq_true hlt)]

theorem digits?_eq_some {cs : List Char} (hne : cs ≠ []) (h : ∀ c ∈ cs, c.isDigit = true) :
    digits? 10 cs = some (Nat.ofDigitChars 10 cs 0) := by
  have hfold (n : Nat) : cs.foldlM (fun n c ↦ (digit? 10 c).map fun d ↦ n * 10 + d) n
      = some (Nat.ofDigitChars 10 cs n) := by
    clear hne
    induction cs generalizing n with
    | nil => simp
    | cons c cs ih =>
      obtain ⟨hc, hcs⟩ := List.forall_mem_cons.mp h
      rw [List.foldlM_cons, digit?_of_isDigit hc, Nat.ofDigitChars_cons, Option.map_some,
        Nat.mul_comm]
      exact ih hcs _
  rw [digits?, if_neg (by simpa using hne), hfold]

/-- The first digit of a number is not zero, unless the number is. -/
theorem head?_toDigits_ne {n : Nat} (h : n ≠ 0) : (Nat.toDigits 10 n).head? ≠ some '0' := by
  induction n using Nat.strongRecOn with
  | ind n ih =>
    rw [Nat.toDigits_eq_if (by decide)]
    split
    · rename_i hlt
      have hdigit : ∀ m < 10, m ≠ 0 → m.digitChar ≠ '0' := by decide
      simpa using hdigit n hlt h
    · have hfirst := ih (n / 10) (Nat.div_lt_self (Nat.pos_of_ne_zero h) (by decide)) (by omega)
      have hne : Nat.toDigits 10 (n / 10) ≠ [] := Nat.toDigits_ne_nil
      obtain ⟨c, cs, hcs⟩ := List.exists_cons_of_ne_nil hne
      rw [hcs] at hfirst ⊢
      exact hfirst

/-- **A number is read from its digits.** -/
theorem unsigned?_toDigits (n : Nat) : unsigned? (Nat.toDigits 10 n) = some n := by
  by_cases hzero : n = 0
  · subst hzero
    rfl
  have hhead := head?_toDigits_ne hzero
  have hdigits : ∀ c ∈ Nat.toDigits 10 n, c.isDigit = true := fun c ↦
    Nat.isDigit_of_mem_toDigits (by decide) (by decide)
  have hread := digits?_eq_some Nat.toDigits_ne_nil hdigits
  rw [Nat.ofDigitChars_ten_toDigits] at hread
  generalize Nat.toDigits 10 n = cs at *
  rcases cs with _ | ⟨c, cs⟩
  · cases hread
  have hc : c ≠ '0' := by simpa using hhead
  have hplus : c ≠ '+' := by
    rintro rfl
    exact absurd (hdigits '+' List.mem_cons_self) (by decide)
  simp [unsigned?, hasLeadingZero, hc, hplus, hread]

/-! ## Truth values and words -/

theorem bool_ofBool (b : Bool) : bool (.ofBool b) = .ok b := by
  cases b <;> rfl

theorem word_ofWord (n : UInt32) : word (.ofWord n) = .ok n := by
  have hread : unsigned? (toString n.toNat).toList = some n.toNat := by
    rw [Nat.toString_eq_ofList_toDigits, String.toList_ofList, unsigned?_toDigits]
  have hlt : n.toNat < UInt32.size := n.toNat_lt_size
  rw [word, natBelow, Node.ofWord, Node.plain, plain, hread]
  simp [hlt, Except.map]

theorem writable_ofBool (b : Bool) : (Node.ofBool b).Writable := by
  refine ⟨rfl, ?_⟩
  cases b <;> decide +kernel

theorem writable_ofWord (n : UInt32) : (Node.ofWord n).Writable := by
  refine ⟨rfl, fun c hc ↦ ?_⟩
  rw [Nat.toString_eq_ofList_toDigits, String.toList_ofList] at hc
  have hdigit := Nat.isDigit_of_mem_toDigits (by decide) (by decide) hc
  simp [isWordChar, Char.isAlphanum, hdigit]

end EffectChain.Yaml
