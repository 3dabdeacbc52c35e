import Mathlib.Data.Nat.Digits.Defs
import Resettle.Php.Literal
import Resettle.Proofs.Text.Pieces

/-!
# Integer tokens

The integer tokens of PHP and the number that each denotes: digits in one of four bases, with
single underscores between them, the base told by what the token starts with.  The main statement
is that such a token is read as its number while that is in the range of integers, as the float
nearest to it up to the width of 128 bits, and beyond that as nothing.
-/

namespace Resettle.Php.Literal

/-! ## Tokens -/

def digitChars : List Char :=
  ['0', '1', '2', '3', '4', '5', '6', '7', '8', '9', 'a', 'b', 'c', 'd', 'e', 'f']

/-- The value of a digit, letters of either case counting from ten; what is no digit has sixteen. -/
def digitOf (c : Char) : Nat :=
  digitChars.idxOf c.toLower

/-- The number that digits denote, the last of them counting once. -/
def numberOf (base : Nat) (digits : List Char) : Nat :=
  Nat.ofDigits base (digits.map digitOf).reverse

/-- At least one digit of a base, and nothing else. -/
structure AreDigits (base : Nat) (ds : List Char) : Prop where
  ne_nil : ds ≠ []
  lt : ∀ c ∈ ds, digitOf c < base

instance (base : Nat) (ds : List Char) : Decidable (AreDigits base ds) :=
  decidable_of_iff (ds ≠ [] ∧ ds.all (digitOf · < base)) <| by
    simp only [List.all_eq_true, decide_eq_true_eq]
    exact ⟨fun h => ⟨h.1, h.2⟩, fun h => ⟨h.ne_nil, h.lt⟩⟩

/-- Digits of a base, single underscores being allowed between them. -/
def IsNumeral (base : Nat) (cs : List Char) : Prop :=
  ∀ group ∈ Text.split '_' cs, AreDigits base group

instance (base : Nat) (cs : List Char) : Decidable (IsNumeral base cs) :=
  inferInstanceAs (Decidable (∀ group ∈ Text.split '_' cs, AreDigits base group))

def numeralValue (base : Nat) (cs : List Char) : Nat :=
  numberOf base (cs.filter (· ≠ '_'))

/-- The integer tokens and their numbers.  A zero in front of other digits makes them octal, and
zero itself is such a token. -/
inductive IntegerToken : List Char → Nat → Prop
  | decimal {cs : List Char} (h : IsNumeral 10 cs) (hzero : cs.head? ≠ some '0') :
      IntegerToken cs (numeralValue 10 cs)
  | leadingZero {cs : List Char} (h : IsNumeral 8 ('0' :: cs)) :
      IntegerToken ('0' :: cs) (numeralValue 8 ('0' :: cs))
  | hexadecimal {x : Char} {cs : List Char} (hx : x = 'x' ∨ x = 'X') (h : IsNumeral 16 cs) :
      IntegerToken ('0' :: x :: cs) (numeralValue 16 cs)
  | binary {x : Char} {cs : List Char} (hx : x = 'b' ∨ x = 'B') (h : IsNumeral 2 cs) :
      IntegerToken ('0' :: x :: cs) (numeralValue 2 cs)
  | octal {x : Char} {cs : List Char} (hx : x = 'o' ∨ x = 'O') (h : IsNumeral 8 cs) :
      IntegerToken ('0' :: x :: cs) (numeralValue 8 cs)

variable {base n : Nat} {c : Char} {cs ds raw : List Char}

/-! ## Reading digits -/

theorem toLower_mem_digitChars (hbase : base ≤ 16) (h : digitOf c < base) :
    c.toLower ∈ digitChars :=
  List.idxOf_lt_length_iff.1 (h.trans_le hbase)

theorem digitValue?_toLower (hbase : base ≤ 16) (h : digitOf c < base) :
    digitValue? base c.toLower = some (digitOf c) := by
  have table : ∀ base < 17, digitChars.all fun d =>
      digitChars.idxOf d < base → digitValue? base d = some (digitChars.idxOf d) := by decide
  have hall := List.all_eq_true.1 (table base (Nat.lt_succ_of_le hbase))
  exact of_decide_eq_true (hall _ (toLower_mem_digitChars hbase h)) h

theorem digitsValue?_eq_foldl (hbase : base ≤ 16) (h : ∀ c ∈ ds, digitOf c < base) (acc : Nat) :
    digitsValue? base acc (ds.map Char.toLower) =
      some ((ds.map digitOf).foldl (fun value d => value * base + d) acc) := by
  induction ds generalizing acc with
  | nil => rfl
  | cons c ds ih =>
      obtain ⟨hc, hds⟩ := List.forall_mem_cons.1 h
      rw [List.map_cons, digitsValue?, digitValue?_toLower hbase hc, Option.bind_some, ih hds]
      rfl

theorem numberOf_eq_foldl (base : Nat) (ds : List Char) :
    numberOf base ds = (ds.map digitOf).foldl (fun value d => value * base + d) 0 := by
  rw [numberOf, Nat.ofDigits_eq_foldr, List.foldr_reverse]
  simp only [Nat.cast_id, Nat.add_comm, Nat.mul_comm]

namespace AreDigits

theorem digitsValue? (h : AreDigits base ds) (hbase : base ≤ 16) :
    digitsValue? base 0 (ds.map Char.toLower) = some (numberOf base ds) := by
  rw [digitsValue?_eq_foldl hbase h.lt, ← numberOf_eq_foldl]

theorem exists_cons (h : AreDigits base ds) (hbase : base ≤ 16) :
    ∃ d more, ds.map Char.toLower = d :: more ∧ d ≠ '+' ∧ d ≠ '-' := by
  obtain ⟨c, rest, rfl⟩ := List.exists_cons_of_ne_nil h.ne_nil
  have hsigns : '+' ∉ digitChars ∧ '-' ∉ digitChars := by decide
  have hmem := toLower_mem_digitChars hbase (h.lt c List.mem_cons_self)
  refine ⟨c.toLower, rest.map Char.toLower, rfl, ?_, ?_⟩
  · exact fun hplus => hsigns.1 (hplus ▸ hmem)
  · exact fun hminus => hsigns.2 (hminus ▸ hmem)

theorem readNat? (h : AreDigits base ds) (hbase : base ≤ 16) :
    readNat? base (ds.map Char.toLower) = some (numberOf base ds) := by
  have hvalue := h.digitsValue? hbase
  obtain ⟨d, more, hcut, hplus, -⟩ := h.exists_cons hbase
  rw [hcut] at hvalue ⊢
  simp [Resettle.readNat?, hplus, hvalue]

theorem readInt? (h : AreDigits base ds) (hbase : base ≤ 16) :
    readInt? base (ds.map Char.toLower) = some (numberOf base ds : Int) := by
  have hread := h.readNat? hbase
  obtain ⟨d, more, hcut, -, hminus⟩ := h.exists_cons hbase
  rw [hcut] at hread ⊢
  simp [Resettle.readInt?, hminus, hread]

end AreDigits

theorem inRange_natCast (n : Nat) : inRange (n : Int) = decide (n < 2 ^ 63) := by
  have hlimit : integerLimit = 2 ^ 63 := rfl
  rw [inRange, hlimit, Bool.eq_iff_iff]
  simp only [Bool.and_eq_true, decide_eq_true_eq]
  omega

theorem readNatUpTo?_eq_ite {bound : Nat} (h : readNat? base cs = some n) :
    readNatUpTo? base bound cs = if n < bound + 1 then some n else none := by
  rw [readNatUpTo?, h, Option.filter_some]
  simp only [decide_eq_true_eq, Nat.lt_succ_iff]

theorem integer?_of_areDigits (hbase : base ≤ 16)
    (hcut : baseAndDigits (plainDigits raw) = (base, ds.map Char.toLower))
    (h : AreDigits base ds) :
    integer? raw =
      if numberOf base ds < 2 ^ 63 then some (.int (numberOf base ds))
      else if numberOf base ds < 2 ^ 128 then some (.float (.ofNat (numberOf base ds)))
      else none := by
  have hint := h.readInt? hbase
  have hwide : readNatUpTo? base (Nat.pow 2 128 - 1) (ds.map Char.toLower) =
      if numberOf base ds < 2 ^ 128 then some (numberOf base ds) else none :=
    readNatUpTo?_eq_ite (h.readNat? hbase)
  simp only [integer?, hcut, hint, hwide, Option.filter_some, inRange_natCast, decide_eq_true_eq]
  by_cases hsmall : numberOf base ds < 2 ^ 63
  · simp only [if_pos hsmall]
  · by_cases hmedium : numberOf base ds < 2 ^ 128
    · simp only [if_neg hsmall, if_pos hmedium, Option.map_some]
    · simp only [if_neg hsmall, if_neg hmedium, Option.map_none]

/-! ## Starts of tokens -/

theorem IsNumeral.exists_cons (h : IsNumeral base cs) : ∃ c rest, cs = c :: rest ∧ c ≠ '_' := by
  cases cs with
  | nil => exact absurd rfl (h [] List.mem_cons_self).ne_nil
  | cons c rest =>
      refine ⟨c, rest, rfl, ?_⟩
      rintro rfl
      exact (h [] (by simp [Text.split])).ne_nil rfl

theorem IsNumeral.digitOf_lt (h : IsNumeral base cs) (hmem : c ∈ cs.filter (· ≠ '_')) :
    digitOf c < base := by
  obtain ⟨hmem, hne⟩ := List.mem_filter.1 hmem
  obtain ⟨group, hgroup, hc⟩ := Text.exists_mem_split hmem (by simpa using hne)
  exact (h group hgroup).lt c hc

theorem IsNumeral.areDigits (h : IsNumeral base cs) : AreDigits base (cs.filter (· ≠ '_')) where
  ne_nil := by
    obtain ⟨c, rest, rfl, hc⟩ := h.exists_cons
    simp [hc]
  lt _ := h.digitOf_lt

theorem numberOf_zero_cons (base : Nat) (ds : List Char) :
    numberOf base ('0' :: ds) = numberOf base ds := by
  have hzero : digitOf '0' = 0 := by decide
  simp [numberOf_eq_foldl, hzero]

theorem eq_zero_of_toLower (h : c.toLower = '0') : c = '0' := by
  unfold Char.toLower at h
  split at h
  · next hupper =>
      have hval := congrArg (fun d => d.val.toNat) h
      have hlow := UInt32.le_iff_toNat_le.1 hupper.1
      have hhigh := UInt32.le_iff_toNat_le.1 hupper.2
      simp only [UInt32.toNat_add] at hval
      simp at hval hlow hhigh
      omega
  · exact h

theorem baseAndDigits_of_ne (hc : c ≠ '0') (cs : List Char) :
    baseAndDigits (c :: cs) = (10, c :: cs) := by
  simp [baseAndDigits, hc]

/-- An octal digit behind the leading zero is no letter that selects a base. -/
theorem baseAndDigits_zero_cons (hc : digitOf c < 8) (cs : List Char) :
    baseAndDigits ('0' :: c.toLower :: cs) = (8, c.toLower :: cs) := by
  have table : digitChars.all fun d =>
      digitChars.idxOf d < 8 → d ≠ 'x' ∧ d ≠ 'b' ∧ d ≠ 'o' := by decide
  have hmem := toLower_mem_digitChars (by decide) hc
  obtain ⟨hx, hb, ho⟩ := of_decide_eq_true (List.all_eq_true.1 table _ hmem) hc
  -- The patterns overlap; the three facts in scope rule the earlier ones out.
  simp [baseAndDigits]

/-- The start of a token selects the base of the digits that follow. -/
theorem IntegerToken.exists_digits (h : IntegerToken raw n) :
    ∃ base ds, base ≤ 16 ∧ baseAndDigits (plainDigits raw) = (base, ds.map Char.toLower) ∧
      AreDigits base ds ∧ numberOf base ds = n := by
  cases h with
  | decimal h hzero =>
      refine ⟨10, _, by decide, ?_, h.areDigits, rfl⟩
      obtain ⟨c, rest, rfl, hc⟩ := h.exists_cons
      have hne : c.toLower ≠ '0' := fun hlower => hzero (by simp [eq_zero_of_toLower hlower])
      have hcut : (c :: rest).filter (· ≠ '_') = c :: rest.filter (· ≠ '_') := by simp [hc]
      rw [plainDigits, hcut]
      exact baseAndDigits_of_ne hne _
  | @leadingZero cs h =>
      have hdigits := h.areDigits
      have hcut : ('0' :: cs).filter (· ≠ '_') = '0' :: cs.filter (· ≠ '_') := rfl
      rw [hcut] at hdigits
      rw [numeralValue, plainDigits, hcut]
      cases hmore : cs.filter (· ≠ '_') with
      | nil => exact ⟨10, ['0'], by decide, rfl, by decide, rfl⟩
      | cons c rest =>
          rw [hmore] at hdigits
          have hmore : AreDigits 8 (c :: rest) :=
            ⟨List.cons_ne_nil _ _, fun d hd => hdigits.lt d (List.mem_cons_of_mem _ hd)⟩
          exact ⟨8, c :: rest, by decide,
            baseAndDigits_zero_cons (hmore.lt c List.mem_cons_self) _, hmore,
            (numberOf_zero_cons 8 _).symm⟩
  | hexadecimal hx h =>
      refine ⟨16, _, by decide, ?_, h.areDigits, rfl⟩
      rcases hx with rfl | rfl <;> rfl
  | binary hx h =>
      refine ⟨2, _, by decide, ?_, h.areDigits, rfl⟩
      rcases hx with rfl | rfl <;> rfl
  | octal hx h =>
      refine ⟨8, _, by decide, ?_, h.areDigits, rfl⟩
      rcases hx with rfl | rfl <;> rfl

/-! ## Decimal digits -/

theorem digitOf_digitChar {d : Nat} (hd : d < 16) : digitOf d.digitChar = d := by
  have table : ∀ d < 16, digitOf (Nat.digitChar d) = d := by decide
  exact table d hd

theorem areDigits_toDigits (hone : 1 < base) (hbase : base ≤ 16) (n : Nat) :
    AreDigits base (Nat.toDigits base n) := by
  refine ⟨Nat.toDigits_ne_nil, ?_⟩
  induction n using Nat.strongRecOn with
  | ind n ih =>
      by_cases hn : n < base
      · rw [Nat.toDigits_of_lt_base hn, List.forall_mem_singleton, digitOf_digitChar (by omega)]
        exact hn
      · have hlast : n % base < base := Nat.mod_lt n (by omega)
        rw [Nat.toDigits_of_base_le hone (by omega), List.forall_mem_append,
          List.forall_mem_singleton, digitOf_digitChar (by omega)]
        exact ⟨ih _ (Nat.div_lt_self (by omega) hone), hlast⟩

theorem numberOf_toDigits (hone : 1 < base) (hbase : base ≤ 16) (n : Nat) :
    numberOf base (Nat.toDigits base n) = n := by
  induction n using Nat.strongRecOn with
  | ind n ih =>
      by_cases hn : n < base
      · rw [Nat.toDigits_of_lt_base hn, numberOf_eq_foldl, List.map_singleton, List.foldl_cons,
          List.foldl_nil, digitOf_digitChar (by omega)]
        omega
      · have hlast : n % base < base := Nat.mod_lt n (by omega)
        have hfront := ih _ (Nat.div_lt_self (by omega) hone)
        rw [numberOf_eq_foldl] at hfront
        rw [Nat.toDigits_of_base_le hone (by omega), numberOf_eq_foldl, List.map_append,
          List.foldl_append, hfront, List.map_singleton, List.foldl_cons, List.foldl_nil,
          digitOf_digitChar (by omega), Nat.div_add_mod']

theorem head?_toDigits_ne (hone : 1 < base) (hbase : base ≤ 16) (hn : 0 < n) :
    (Nat.toDigits base n).head? ≠ some '0' := by
  induction n using Nat.strongRecOn with
  | ind n ih =>
      by_cases hlt : n < base
      · have table : ∀ d < 16, 0 < d → d.digitChar ≠ '0' := by decide
        rw [Nat.toDigits_of_lt_base hlt, List.head?_cons]
        exact fun h => table n (by omega) hn (Option.some.inj h)
      · have hfront := ih _ (Nat.div_lt_self hn hone) (Nat.div_pos (by omega) (by omega))
        have hne : Nat.toDigits base (n / base) ≠ [] := Nat.toDigits_ne_nil
        obtain ⟨c, rest, hcut⟩ := List.exists_cons_of_ne_nil hne
        rw [Nat.toDigits_of_base_le hone (by omega), hcut]
        rwa [hcut] at hfront

theorem isNumeral_of_areDigits (h : AreDigits base ds) (hds : '_' ∉ ds) : IsNumeral base ds := by
  rwa [IsNumeral, Text.split_of_notMem hds, List.forall_mem_singleton]

theorem integerToken_toDigits (n : Nat) : IntegerToken (Nat.toDigits 10 n) n := by
  have hplain : '_' ∉ Nat.toDigits 10 n := Nat.underscore_not_in_toDigits
  have hfilter : (Nat.toDigits 10 n).filter (· ≠ '_') = Nat.toDigits 10 n :=
    List.filter_eq_self.2 fun c hc => by simpa using fun h : c = '_' => hplain (h ▸ hc)
  have hvalue : numeralValue 10 (Nat.toDigits 10 n) = n := by
    rw [numeralValue, hfilter, numberOf_toDigits (by decide) (by decide)]
  rcases Nat.eq_zero_or_pos n with rfl | hn
  · have hzero : IsNumeral 8 ['0'] := by decide
    exact .leadingZero hzero
  · have hnumeral := isNumeral_of_areDigits (areDigits_toDigits (by decide) (by decide) n) hplain
    have htoken := IntegerToken.decimal hnumeral (head?_toDigits_ne (by decide) (by decide) hn)
    rwa [hvalue] at htoken

/-! ## What tokens are read as -/

/-- A token is read as its number while that is in the range of integers, as the float nearest to
it up to the width of 128 bits, and beyond that as nothing. -/
theorem integer?_of_token (h : IntegerToken raw n) :
    integer? raw =
      if n < 2 ^ 63 then some (.int n)
      else if n < 2 ^ 128 then some (.float (.ofNat n))
      else none := by
  obtain ⟨base, ds, hbase, hcut, hdigits, rfl⟩ := h.exists_digits
  exact integer?_of_areDigits hbase hcut hdigits

/-- The least number that is no integer any more, with separators and letters of both cases. -/
theorem integer?_of_token_separated :
    let raw := ['0', 'X', '8', '0', '0', '0', '_', '0', '0', '0', '0', '_', '0', '0', '0', '0', '_',
      '0', '0', '0', '0']
    IntegerToken raw (2 ^ 63) ∧
      integer? raw =
        if 2 ^ 63 < 2 ^ 63 then some (.int (2 ^ 63 : Nat))
        else if 2 ^ 63 < 2 ^ 128 then some (.float (.ofNat (2 ^ 63)))
        else none := by
  intro raw
  have htoken : IntegerToken raw (2 ^ 63) := .hexadecimal (.inr rfl) (by decide)
  exact ⟨htoken, integer?_of_token htoken⟩

/-- The token of the least number that is wider than 128 bits is not read at all. -/
theorem not_integer?_of_token_wide :
    ¬ ∀ (raw : List Char) (n : Nat), IntegerToken raw n →
      if n < 2 ^ 63 then integer? raw = some (.int n)
      else ∃ x, integer? raw = some (.float x) := by
  intro h
  have htoken : IntegerToken ('0' :: 'x' :: '1' :: List.replicate 32 '0') (2 ^ 128) :=
    .hexadecimal (.inl rfl) (by decide)
  have hread : integer? ('0' :: 'x' :: '1' :: List.replicate 32 '0') = none := by decide +kernel
  have hwide := h _ _ htoken
  rw [if_neg (by decide), hread] at hwide
  obtain ⟨x, hx⟩ := hwide
  cases hx

end Resettle.Php.Literal
