import Resettle.Proofs.Php.Integers

/-!
# Reading numerals

What the reader of natural numbers accepts: digits of a base, letters of either case, perhaps
behind a plus sign.  No other sign is allowed, and no separator.
-/

namespace Resettle

open Php.Literal

variable {base n : Nat} {c : Char} {cs ds : List Char}

/-! ## Digits -/

theorem digitOf_of_le (h : 128 ≤ c.toNat) : digitOf c = 16 := by
  have hascii : digitChars.all fun d => d.toNat < 128 := by decide
  have hupper : ¬ (c.val ≥ 'A'.val ∧ c.val ≤ 'Z'.val) := by
    rintro ⟨-, hle⟩
    have hnat : c.toNat ≤ 90 := UInt32.le_iff_toNat_le.1 hle
    omega
  have hlower : c.toLower = c := by
    unfold Char.toLower
    rw [dif_neg hupper]
  have hmem : c ∉ digitChars := fun hmem =>
    absurd (of_decide_eq_true (List.all_eq_true.1 hascii c hmem)) (by omega)
  rw [digitOf, hlower]
  exact List.idxOf_eq_length hmem

theorem digitValue?_of_le (h : 128 ≤ c.toNat) : digitValue? base c = none := by
  have hbeyond : ∀ d : Char, d.toNat < 128 → ¬ c ≤ d := by
    intro d hd hle
    have hnat : c.toNat ≤ d.toNat := UInt32.le_iff_toNat_le.1 hle
    omega
  have hnine := hbeyond '9' (by decide)
  have hsmall := hbeyond 'z' (by decide)
  have hlarge := hbeyond 'Z' (by decide)
  simp [digitValue?, hnine, hsmall, hlarge]

theorem digitValue?_eq_ite (hbase : base ≤ 16) (c : Char) :
    digitValue? base c = if digitOf c < base then some (digitOf c) else none := by
  by_cases hascii : c.toNat < 128
  · have table : ∀ k < 128, ∀ base < 17, digitValue? base (Char.ofNat k) =
        if digitOf (Char.ofNat k) < base then some (digitOf (Char.ofNat k)) else none := by
      decide +kernel
    simpa using table c.toNat hascii base (Nat.lt_succ_of_le hbase)
  · have hle : 128 ≤ c.toNat := Nat.le_of_not_lt hascii
    rw [digitValue?_of_le hle, digitOf_of_le hle, if_neg (by omega)]

theorem digitsValue?_eq_some_iff (hbase : base ≤ 16) (acc : Nat) :
    digitsValue? base acc ds = some n ↔
      (∀ c ∈ ds, digitOf c < base) ∧
        (ds.map digitOf).foldl (fun value d => value * base + d) acc = n := by
  induction ds generalizing acc with
  | nil => simp [digitsValue?]
  | cons c ds ih =>
      rw [digitsValue?, digitValue?_eq_ite hbase, List.forall_mem_cons]
      by_cases hc : digitOf c < base
      · rw [if_pos hc, Option.bind_some, ih]
        simp [hc]
      · simp [hc]

/-! ## Natural numbers -/

theorem readNat?_of_unsigned (h : ∀ more, cs ≠ '+' :: more) :
    readNat? base cs = if cs = [] then none else digitsValue? base 0 cs := by
  cases cs with
  | nil => rfl
  | cons c more =>
      -- The fact in scope rules the branch of the sign out.
      have hc : c ≠ '+' := fun hplus => h more (hplus ▸ rfl)
      simp [readNat?]

theorem readNat?_eq_some_iff (hbase : base ≤ 16) :
    readNat? base cs = some n ↔
      ∃ ds, (cs = ds ∨ cs = '+' :: ds) ∧ AreDigits base ds ∧ numberOf base ds = n := by
  have hdigits : ∀ ds : List Char,
      ((if ds = [] then none else digitsValue? base 0 ds) = some n ↔
        AreDigits base ds ∧ numberOf base ds = n) := by
    intro ds
    by_cases hnil : ds = []
    · simp only [hnil, if_true, reduceCtorEq, false_iff, not_and]
      exact fun h => absurd rfl h.ne_nil
    · rw [if_neg hnil, digitsValue?_eq_some_iff hbase, ← numberOf_eq_foldl]
      exact and_congr_left fun _ => ⟨fun h => ⟨hnil, h⟩, fun h => h.lt⟩
  have hplus : ∀ more, ¬ AreDigits base ('+' :: more) := by
    intro more h
    have hsign : digitOf '+' = 16 := by decide
    have := h.lt '+' List.mem_cons_self
    omega
  by_cases hsigned : ∃ more, cs = '+' :: more
  · obtain ⟨more, rfl⟩ := hsigned
    have hread : readNat? base ('+' :: more) =
        if more = [] then none else digitsValue? base 0 more := rfl
    rw [hread, hdigits]
    constructor
    · exact fun h => ⟨more, .inr rfl, h⟩
    · rintro ⟨ds, rfl | hcut, h⟩
      · exact absurd h.1 (hplus more)
      · rwa [(List.cons.inj hcut).2]
  · have hbare : ∀ more, cs ≠ '+' :: more := fun more h => hsigned ⟨more, h⟩
    rw [readNat?_of_unsigned hbare, hdigits]
    constructor
    · exact fun h => ⟨cs, .inl rfl, h⟩
    · rintro ⟨ds, rfl | hcut, h⟩
      · exact h
      · exact absurd hcut (hbare ds)

theorem readNatUpTo?_eq_some_iff {bound : Nat} :
    readNatUpTo? base bound cs = some n ↔ readNat? base cs = some n ∧ n ≤ bound := by
  rw [readNatUpTo?, Option.filter_eq_some_iff, decide_eq_true_eq]

end Resettle
