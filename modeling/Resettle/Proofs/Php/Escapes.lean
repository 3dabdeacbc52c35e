import Mathlib.Data.List.TakeWhile
import Resettle.Proofs.Number.Numerals

/-!
# Escapes between double quotes

The escapes of PHP's double-quoted strings, stated without the reader: each stands behind a
backslash, the longest one that fits is taken, and what opens no escape stands for itself.  The
main statement is that a token without interpolation is read as the text that its parts stand for,
exactly if every code point in braces that it opens is closed and none of them has a sign.
-/

namespace Resettle.Php.Literal

/-! ## The grammar -/

/-- The escapes of a single character, and the characters that they stand for. -/
def letterEscapes : List (Char × Char) :=
  [('n', '\n'), ('t', '\t'), ('r', '\r'), ('v', '\x0b'), ('e', '\x1b'), ('f', '\x0c'),
    ('\\', '\\'), ('$', '$'), ('"', '"')]

/-- The escapes as they stand behind a backslash, each with the character that it stands for. -/
inductive IsEscape : List Char → Char → Prop
  | letter {c d : Char} (h : (c, d) ∈ letterEscapes) : IsEscape [c] d
  | octal {ds : List Char} (h : AreDigits 8 ds) (hlength : ds.length ≤ 3) :
      IsEscape ds (Char.ofNat (numberOf 8 ds % 256))
  | hexadecimal {ds : List Char} (h : AreDigits 16 ds) (hlength : ds.length ≤ 2) :
      IsEscape ('x' :: ds) (Char.ofNat (numberOf 16 ds))
  | codePoint {ds : List Char} (h : AreDigits 16 ds) (hscalar : (numberOf 16 ds).isValidChar) :
      IsEscape ('u' :: '{' :: (ds ++ ['}'])) (Char.ofNat (numberOf 16 ds))

/-- No escape stands at the start of a text. -/
def NoEscape (cs : List Char) : Prop :=
  ∀ spelling c, IsEscape spelling c → ¬ spelling <+: cs

/-- A part of the text between double quotes. -/
inductive Part where
  /-- A character, by itself or by an escape. -/
  | char (c : Char)
  /-- A code point in braces that is none. -/
  | refused (content : List Char)
  /-- A code point in braces that are never closed. -/
  | unclosed (content : List Char)

/-- The text that a part stands for. -/
def Part.meaning : Part → List Char
  | char c => [c]
  | refused content => '\\' :: 'u' :: '{' :: (content ++ ['}'])
  | unclosed content => '\\' :: 'u' :: '{' :: content

/-- The part that a backslash opens in front of a text, and the text behind the part. -/
inductive Opens : List Char → Part → List Char → Prop
  /-- Of the escapes that fit, the longest one is taken. -/
  | escape {spelling rest : List Char} {c : Char} (h : IsEscape spelling c)
      (hlongest : ∀ other d, IsEscape other d → other <+: spelling ++ rest →
        other.length ≤ spelling.length) :
      Opens (spelling ++ rest) (.char c) rest
  | refused {content rest : List Char} (hclosed : '}' ∉ content)
      (h : NoEscape ('u' :: '{' :: (content ++ '}' :: rest))) :
      Opens ('u' :: '{' :: (content ++ '}' :: rest)) (.refused content) rest
  | unclosed {content : List Char} (hopen : '}' ∉ content) :
      Opens ('u' :: '{' :: content) (.unclosed content) []
  /-- Any other backslash stands for itself. -/
  | backslash {cs : List Char} (h : NoEscape cs) (hbrace : ¬ ['u', '{'] <+: cs) :
      Opens cs (.char '\\') cs

/-- The parts of the text between double quotes, from left to right. -/
inductive Reads : List Char → List Part → Prop
  | nil : Reads [] []
  | plain {c : Char} {cs : List Char} {parts : List Part} (hc : c ≠ '\\') (h : Reads cs parts) :
      Reads (c :: cs) (.char c :: parts)
  | opened {cs rest : List Char} {part : Part} {parts : List Part} (hpart : Opens cs part rest)
      (h : Reads rest parts) : Reads ('\\' :: cs) (part :: parts)

variable {c d : Char} {cs ds rest rest' content spelling inner : List Char} {part part' : Part}
  {parts parts' : List Part}

/-! ## One reading -/

theorem IsEscape.ne_nil (h : IsEscape spelling c) : spelling ≠ [] := by
  cases h with
  | octal h => exact h.ne_nil
  | letter => exact List.cons_ne_nil _ _
  | hexadecimal => exact List.cons_ne_nil _ _
  | codePoint => exact List.cons_ne_nil _ _

theorem IsEscape.exists_cons (h : IsEscape spelling d) (hbegins : spelling <+: c :: cs) :
    ∃ more, spelling = c :: more ∧ more <+: cs := by
  obtain ⟨first, more, rfl⟩ := List.exists_cons_of_ne_nil h.ne_nil
  obtain ⟨rfl, hmore⟩ := List.cons_prefix_cons.1 hbegins
  exact ⟨more, rfl, hmore⟩

theorem not_octal_of_letter (h : (c, d) ∈ letterEscapes) : ¬ digitOf c < 8 := by
  have table : ∀ e ∈ letterEscapes, ¬ digitOf e.1 < 8 := by decide
  exact table _ h

theorem letter_ne (h : (c, d) ∈ letterEscapes) : c ≠ 'x' ∧ c ≠ 'u' := by
  have table : ∀ e ∈ letterEscapes, e.1 ≠ 'x' ∧ e.1 ≠ 'u' := by decide
  exact table _ h

theorem letter_functional {d' : Char} (h : (c, d) ∈ letterEscapes)
    (h' : (c, d') ∈ letterEscapes) : d = d' := by
  have table : ∀ e ∈ letterEscapes, ∀ e' ∈ letterEscapes, e.1 = e'.1 → e.2 = e'.2 := by decide
  exact table _ h _ h' rfl

theorem isEscape_letter (h : (c, d) ∈ letterEscapes) {e : Char} (hescape : IsEscape (c :: cs) e) :
    cs = [] ∧ e = d := by
  cases hescape with
  | letter h' => exact ⟨rfl, letter_functional h' h⟩
  | octal h' => exact absurd (h'.lt c List.mem_cons_self) (not_octal_of_letter h)
  | hexadecimal => exact absurd rfl (letter_ne h).1
  | codePoint => exact absurd rfl (letter_ne h).2

theorem isEscape_octal (h : digitOf c < 8) (hescape : IsEscape (c :: cs) d) :
    AreDigits 8 (c :: cs) ∧ (c :: cs).length ≤ 3 ∧
      d = Char.ofNat (numberOf 8 (c :: cs) % 256) := by
  have hx : ¬ digitOf 'x' < 8 := by decide
  have hu : ¬ digitOf 'u' < 8 := by decide
  cases hescape with
  | letter h' => exact absurd h (not_octal_of_letter h')
  | octal h' hlength => exact ⟨h', hlength, rfl⟩
  | hexadecimal => exact absurd h hx
  | codePoint => exact absurd h hu

theorem isEscape_x (hescape : IsEscape ('x' :: cs) d) :
    AreDigits 16 cs ∧ cs.length ≤ 2 ∧ d = Char.ofNat (numberOf 16 cs) := by
  have hx : ¬ digitOf 'x' < 8 := by decide
  generalize hcut : 'x' :: cs = spelling at hescape
  cases hescape with
  | letter h' => exact absurd (List.cons.inj hcut).1.symm (letter_ne h').1
  | octal h' =>
      subst hcut
      exact absurd (h'.lt 'x' List.mem_cons_self) hx
  | hexadecimal h' hlength =>
      obtain rfl := (List.cons.inj hcut).2
      exact ⟨h', hlength, rfl⟩
  | codePoint => exact absurd (List.cons.inj hcut).1 (by decide)

theorem isEscape_u (hescape : IsEscape ('u' :: cs) d) :
    ∃ ds, cs = '{' :: (ds ++ ['}']) ∧ AreDigits 16 ds ∧ (numberOf 16 ds).isValidChar ∧
      d = Char.ofNat (numberOf 16 ds) := by
  have hu : ¬ digitOf 'u' < 8 := by decide
  generalize hcut : 'u' :: cs = spelling at hescape
  cases hescape with
  | letter h' => exact absurd (List.cons.inj hcut).1.symm (letter_ne h').2
  | octal h' =>
      subst hcut
      exact absurd (h'.lt 'u' List.mem_cons_self) hu
  | hexadecimal => exact absurd (List.cons.inj hcut).1 (by decide)
  | codePoint h' hscalar => exact ⟨_, (List.cons.inj hcut).2, h', hscalar, rfl⟩

theorem IsEscape.functional (h : IsEscape spelling c) (h' : IsEscape spelling d) : c = d := by
  cases h with
  | letter h => exact (isEscape_letter h h').2.symm
  | octal h hlength =>
      obtain ⟨first, more, rfl⟩ := List.exists_cons_of_ne_nil h.ne_nil
      exact (isEscape_octal (h.lt first List.mem_cons_self) h').2.2.symm
  | hexadecimal => exact (isEscape_x h').2.2.symm
  | codePoint =>
      obtain ⟨ds, hcut, -, -, rfl⟩ := isEscape_u h'
      rw [List.append_cancel_right (List.cons.inj hcut).2]

theorem noEscape_of_unclosed (h : '}' ∉ content) : NoEscape ('u' :: '{' :: content) := by
  intro spelling c hescape hbegins
  obtain ⟨more, rfl, hmore⟩ := hescape.exists_cons hbegins
  obtain ⟨ds, rfl, -, -, -⟩ := isEscape_u hescape
  have hmem : '}' ∈ '{' :: content := hmore.subset (by simp)
  exact h (List.mem_of_ne_of_mem (by decide) hmem)

theorem eq_of_prefix_closed (hclosed : '}' ∉ content) (h : IsEscape spelling c)
    (hbegins : spelling <+: 'u' :: '{' :: (content ++ '}' :: rest)) :
    AreDigits 16 content ∧ (numberOf 16 content).isValidChar ∧
      spelling = 'u' :: '{' :: (content ++ ['}']) := by
  have hbrace : ¬ digitOf '}' < 16 := by decide
  obtain ⟨more, rfl, hmore⟩ := h.exists_cons hbegins
  obtain ⟨ds, rfl, hdigits, hscalar, -⟩ := isEscape_u h
  obtain ⟨tail, htail⟩ := (List.cons_prefix_cons.1 hmore).2
  rw [List.append_assoc, List.singleton_append] at htail
  have hds : '}' ∉ ds := fun hmem => hbrace (hdigits.lt _ hmem)
  obtain ⟨rfl, -⟩ := Text.front_unique hds hclosed htail
  exact ⟨hdigits, hscalar, rfl⟩

theorem NoEscape.not_isEscape (h : NoEscape (spelling ++ rest)) : ¬ IsEscape spelling c :=
  fun hescape => h spelling c hescape (List.prefix_append spelling rest)

theorem Opens.unique (h : Opens cs part rest) (h' : Opens cs part' rest') :
    part = part' ∧ rest = rest' := by
  have hbrace : ∀ content : List Char, ['u', '{'] <+: 'u' :: '{' :: content := fun content =>
    List.prefix_append ['u', '{'] content
  cases h with
  | @escape spelling rest c h hlongest =>
      generalize hcut : spelling ++ rest = cs at h'
      cases h' with
      | @escape spelling' rest' d h' hlongest' =>
          have hle := hlongest' spelling c h (hcut ▸ List.prefix_append spelling rest)
          have hge := hlongest spelling' d h' (hcut ▸ List.prefix_append spelling' rest')
          obtain ⟨rfl, rfl⟩ := List.append_inj hcut (Nat.le_antisymm hle hge)
          exact ⟨congrArg _ (h.functional h'), rfl⟩
      | refused hclosed hnone => exact absurd h (hcut ▸ hnone).not_isEscape
      | unclosed hopen => exact absurd h (hcut ▸ noEscape_of_unclosed hopen).not_isEscape
      | backslash hnone => exact absurd h (hcut ▸ hnone).not_isEscape
  | @refused content rest hclosed hnone =>
      generalize hcut : 'u' :: '{' :: (content ++ '}' :: rest) = cs at h'
      cases h' with
      | escape h' => exact absurd h' (hcut ▸ hnone).not_isEscape
      | @refused content' rest' hclosed' =>
          have hsame := (List.cons.inj (List.cons.inj hcut).2).2
          obtain ⟨rfl, rfl⟩ := Text.front_unique hclosed hclosed' hsame
          exact ⟨rfl, rfl⟩
      | @unclosed content' hopen =>
          have hsame := (List.cons.inj (List.cons.inj hcut).2).2
          exact absurd (hsame ▸ List.mem_append_right _ List.mem_cons_self) hopen
      | backslash _ hother => exact absurd (hcut ▸ hbrace _) hother
  | @unclosed content hopen =>
      generalize hcut : 'u' :: '{' :: content = cs at h'
      cases h' with
      | escape h' => exact absurd h' (hcut ▸ noEscape_of_unclosed hopen).not_isEscape
      | @refused content' rest' hclosed' =>
          have hsame := (List.cons.inj (List.cons.inj hcut).2).2
          exact absurd (hsame ▸ List.mem_append_right _ List.mem_cons_self) hopen
      | unclosed => exact ⟨congrArg _ (List.cons.inj (List.cons.inj hcut).2).2, rfl⟩
      | backslash _ hother => exact absurd (hcut ▸ hbrace _) hother
  | backslash hnone hother =>
      cases h' with
      | escape h' => exact absurd h' hnone.not_isEscape
      | refused => exact absurd (hbrace _) hother
      | unclosed => exact absurd (hbrace _) hother
      | backslash => exact ⟨rfl, rfl⟩

theorem Reads.unique (h : Reads cs parts) (h' : Reads cs parts') : parts = parts' := by
  induction h generalizing parts' with
  | nil =>
      cases h'
      rfl
  | plain hc h ih =>
      cases h' with
      | plain _ h' => rw [ih h']
      | opened => exact absurd rfl hc
  | opened hpart h ih =>
      cases h' with
      | plain hc => exact absurd rfl hc
      | opened hpart' h' =>
          obtain ⟨rfl, rfl⟩ := hpart.unique hpart'
          rw [ih h']

/-! ## What the reader makes of a part -/

def Part.written : Part → List Char
  | char c => [c]
  | refused content => (braceEscape content).1
  | unclosed content => (braceEscape content).1

theorem letterEscape?_eq_some_iff : letterEscape? c = some d ↔ (c, d) ∈ letterEscapes := by
  unfold letterEscape?
  split <;> simp_all [letterEscapes, eq_comm]

theorem isOctal_iff : isOctal c = true ↔ digitOf c < 8 := by
  by_cases hascii : c.toNat < 128
  · have table : ∀ k < 128, isOctal (Char.ofNat k) = decide (digitOf (Char.ofNat k) < 8) := by
      decide +kernel
    simpa using congrArg (· = true) (table c.toNat hascii)
  · rw [digitOf_of_le (Nat.le_of_not_lt hascii)]
    have hseven : ¬ c ≤ '7' := by
      intro hle
      have hnat : c.toNat ≤ 55 := UInt32.le_iff_toNat_le.1 hle
      omega
    simp [isOctal, hseven]

theorem isHex_iff : isHex c = true ↔ digitOf c < 16 := by
  rw [isHex, digitValue?_eq_ite (by decide)]
  by_cases hc : digitOf c < 16
  · simp [hc]
  · simp [hc]

theorem valueOf_eq_numberOf {base : Nat} (hbase : base ≤ 16) (h : ∀ c ∈ ds, digitOf c < base) :
    valueOf base ds = numberOf base ds := by
  have hread := (digitsValue?_eq_some_iff hbase 0).2 ⟨h, rfl⟩
  rw [valueOf, hread, numberOf_eq_foldl]
  rfl

theorem length_le_takeWhile_take {p : Char → Bool} {k : Nat} (hbegins : ds <+: cs)
    (hlength : ds.length ≤ k) (h : ∀ c ∈ ds, p c = true) :
    ds.length ≤ ((cs.take k).takeWhile p).length := by
  obtain ⟨rest, rfl⟩ := hbegins
  rw [List.take_append, List.take_of_length_le hlength, List.takeWhile_append_of_pos h,
    List.length_append]
  omega

theorem exists_digits_append (p : Char → Bool) (k : Nat) (cs : List Char) :
    ∃ rest, cs = (cs.take k).takeWhile p ++ rest ∧
      cs.drop ((cs.take k).takeWhile p).length = rest := by
  obtain ⟨rest, hrest⟩ := (List.takeWhile_prefix p).trans (List.take_prefix k cs)
  refine ⟨rest, hrest.symm, ?_⟩
  have hdrop : ((cs.take k).takeWhile p ++ rest).drop ((cs.take k).takeWhile p).length = rest :=
    List.drop_left
  rwa [hrest] at hdrop

/-- A backslash opens the part in front of some text, and the reader makes of it what it writes
for the part. -/
structure Taken (cs : List Char) (part : Part) (rest : List Char) : Prop where
  opens : Opens cs part rest
  length : rest.length ≤ cs.length
  unescape : unescapeDouble ('\\' :: cs) = part.written ++ unescapeDouble rest

theorem unescapeDouble_backslash (cs : List Char) :
    unescapeDouble ('\\' :: cs) = (escape cs).1 ++ unescapeDouble (escape cs).2 := by
  rw [unescapeDouble, if_pos rfl]

theorem unescapeDouble_cons (hc : c ≠ '\\') (cs : List Char) :
    unescapeDouble (c :: cs) = c :: unescapeDouble cs := by
  rw [unescapeDouble, if_neg hc]

theorem taken_letter (h : (c, d) ∈ letterEscapes) (rest : List Char) :
    Taken (c :: rest) (.char d) rest where
  opens := by
    refine Opens.escape (IsEscape.letter h) fun other e hother hbegins => ?_
    obtain ⟨more, rfl, -⟩ := hother.exists_cons hbegins
    rw [(isEscape_letter h hother).1]
  length := Nat.le_succ _
  unescape := by
    have hescape : escape (c :: rest) = ([d], rest) := by
      unfold escape
      simp only [letterEscape?_eq_some_iff.2 h]
    rw [unescapeDouble_backslash, hescape]
    rfl

theorem letterEscape?_eq_none (h : ∀ d, (c, d) ∉ letterEscapes) : letterEscape? c = none := by
  rw [Option.eq_none_iff_forall_ne_some]
  exact fun d hd => h d (letterEscape?_eq_some_iff.1 hd)

theorem exists_taken_octal (hc : digitOf c < 8) (cs : List Char) :
    ∃ part rest, Taken (c :: cs) part rest := by
  obtain ⟨rest, hcut, hdrop⟩ := exists_digits_append isOctal 3 (c :: cs)
  set ds := ((c :: cs).take 3).takeWhile isOctal with hds
  have hne : ds ≠ [] := by simp [hds, isOctal_iff.2 hc]
  have hdigits : AreDigits 8 ds :=
    ⟨hne, fun e he => isOctal_iff.1 (List.mem_takeWhile_imp he)⟩
  have hlength : ds.length ≤ 3 :=
    (List.takeWhile_prefix isOctal).length_le.trans (List.length_take_le 3 _)
  have hletter : letterEscape? c = none :=
    letterEscape?_eq_none fun d hd => not_octal_of_letter hd hc
  refine ⟨.char (Char.ofNat (numberOf 8 ds % 256)), rest, ⟨?_, ?_, ?_⟩⟩
  · rw [hcut]
    refine .escape (.octal hdigits hlength) fun other e hother hbegins => ?_
    rw [← hcut] at hbegins
    obtain ⟨more, rfl, -⟩ := hother.exists_cons hbegins
    obtain ⟨hmore, hshort, -⟩ := isEscape_octal hc hother
    exact length_le_takeWhile_take hbegins hshort fun e he => isOctal_iff.2 (hmore.lt e he)
  · rw [← hdrop, List.length_drop]
    exact Nat.sub_le _ _
  · have hescape : escape (c :: cs) = ([Char.ofNat (numberOf 8 ds % 256)], rest) := by
      unfold escape
      simp only [hletter, isOctal_iff.2 hc, if_true, octalEscape, ← hds, hdrop,
        valueOf_eq_numberOf (by decide) hdigits.lt]
    rw [unescapeDouble_backslash, hescape]
    rfl

/-- A backslash that opens no part stands for itself, and the text behind it is read on. -/
theorem taken_backslash (hnone : NoEscape cs) (hbrace : ¬ ['u', '{'] <+: cs)
    (hescape : unescapeDouble ('\\' :: cs) = '\\' :: unescapeDouble cs) :
    Taken cs (.char '\\') cs where
  opens := .backslash hnone hbrace
  length := Nat.le_refl _
  unescape := hescape

theorem exists_taken_x (cs : List Char) : ∃ part rest, Taken ('x' :: cs) part rest := by
  obtain ⟨rest, hcut, hdrop⟩ := exists_digits_append isHex 2 cs
  set ds := (cs.take 2).takeWhile isHex with hds
  have hlt : ∀ e ∈ ds, digitOf e < 16 := fun e he => isHex_iff.1 (List.mem_takeWhile_imp he)
  have hescape : escape ('x' :: cs) = hexEscape cs := rfl
  by_cases hnil : ds = []
  · have hbare : hexEscape cs = (['\\', 'x'], cs) := by
      rw [hexEscape, ← hds, if_pos hnil]
    refine ⟨_, _, taken_backslash ?_ (by simp) ?_⟩
    · intro spelling c hspelling hbegins
      obtain ⟨more, rfl, hmore⟩ := hspelling.exists_cons hbegins
      obtain ⟨hdigits, hshort, -⟩ := isEscape_x hspelling
      have hle := length_le_takeWhile_take hmore hshort fun e he => isHex_iff.2 (hdigits.lt e he)
      rw [← hds, hnil] at hle
      exact hdigits.ne_nil (List.length_eq_zero_iff.1 (Nat.le_zero.1 hle))
    · rw [unescapeDouble_backslash, hescape, hbare, unescapeDouble_cons (by decide)]
      rfl
  · have hdigits : AreDigits 16 ds := ⟨hnil, hlt⟩
    have hlength : ds.length ≤ 2 :=
      (List.takeWhile_prefix isHex).length_le.trans (List.length_take_le 2 _)
    have htaken : hexEscape cs = ([Char.ofNat (numberOf 16 ds)], rest) := by
      simp only [hexEscape, ← hds, hnil, if_false, hdrop, valueOf_eq_numberOf (by decide) hlt]
    refine ⟨.char (Char.ofNat (numberOf 16 ds)), rest, ⟨?_, ?_, ?_⟩⟩
    · rw [hcut]
      refine Opens.escape (IsEscape.hexadecimal hdigits hlength) ?_
      intro other e hother hbegins
      rw [List.cons_append, ← hcut] at hbegins
      obtain ⟨more, rfl, hmore⟩ := hother.exists_cons hbegins
      obtain ⟨hdigits, hshort, -⟩ := isEscape_x hother
      exact Nat.succ_le_succ
        (length_le_takeWhile_take hmore hshort fun e he => isHex_iff.2 (hdigits.lt e he))
    · rw [← hdrop, List.length_cons, List.length_drop]
      omega
    · rw [unescapeDouble_backslash, hescape, htaken]
      rfl

theorem all_ne_brace (h : '}' ∉ content) : ∀ c ∈ content, decide (c ≠ '}') = true := by
  intro c hc
  simpa using fun heq : c = '}' => h (heq ▸ hc)

theorem takeWhile_ne_brace (h : '}' ∉ content) : content.takeWhile (· ≠ '}') = content :=
  List.takeWhile_eq_self_iff.2 (all_ne_brace h)

theorem braceEscape_of_closed (h : '}' ∉ content) (rest : List Char) :
    braceEscape (content ++ '}' :: rest) = ((braceEscape content).1, rest) := by
  have hfront : (content ++ '}' :: rest).takeWhile (· ≠ '}') = content := by
    rw [List.takeWhile_append_of_pos (all_ne_brace h)]
    simp
  have hback : (content ++ '}' :: rest).dropWhile (· ≠ '}') = '}' :: rest := by
    rw [List.dropWhile_append_of_pos (all_ne_brace h)]
    simp
  simp only [braceEscape, hfront, takeWhile_ne_brace h, hback]
  rfl

theorem snd_braceEscape_of_unclosed (h : '}' ∉ content) : (braceEscape content).2 = [] := by
  have hback : content.dropWhile (· ≠ '}') = [] := List.dropWhile_eq_nil_iff.2 (all_ne_brace h)
  simp only [braceEscape, hback]
  rfl

/-- A code point in braces is replaced only where the digits are those of a character. -/
theorem fst_braceEscape_of_some (h : '}' ∉ content)
    (hread : (readNat? 16 content).bind scalarValue? = some c) : (braceEscape content).1 = [c] := by
  simp only [braceEscape, takeWhile_ne_brace h, hread]

theorem fst_braceEscape_of_none (h : '}' ∉ content)
    (hread : (readNat? 16 content).bind scalarValue? = none) :
    (braceEscape content).1 = '\\' :: 'u' :: '{' :: (content ++ ['}']) := by
  simp only [braceEscape, takeWhile_ne_brace h, hread]

theorem bind_scalarValue?_eq_some_iff :
    (readNat? 16 content).bind scalarValue? = some c ↔
      ∃ ds, (content = ds ∨ content = '+' :: ds) ∧ AreDigits 16 ds ∧
        (numberOf 16 ds).isValidChar ∧ Char.ofNat (numberOf 16 ds) = c := by
  have hscalar : ∀ n, scalarValue? n = some c ↔ n.isValidChar ∧ Char.ofNat n = c := by
    intro n
    by_cases hn : n.isValidChar <;> simp [scalarValue?, hn]
  simp only [Option.bind_eq_some_iff, readNat?_eq_some_iff (by decide : 16 ≤ 16), hscalar]
  constructor
  · rintro ⟨n, ⟨ds, hcontent, hdigits, rfl⟩, hn⟩
    exact ⟨ds, hcontent, hdigits, hn⟩
  · rintro ⟨ds, hcontent, hdigits, hn⟩
    exact ⟨_, ⟨ds, hcontent, hdigits, rfl⟩, hn⟩

theorem exists_taken_brace (inner : List Char) :
    ∃ part rest, Taken ('u' :: '{' :: inner) part rest := by
  have hescape : escape ('u' :: '{' :: inner) = braceEscape inner := rfl
  by_cases hclosed : '}' ∈ inner
  · obtain ⟨content, rest, rfl, hcontent⟩ := List.eq_append_cons_of_mem hclosed
    have hshorter : rest.length ≤ ('u' :: '{' :: (content ++ '}' :: rest)).length := by
      simp only [List.length_cons, List.length_append]
      omega
    rw [braceEscape_of_closed hcontent] at hescape
    by_cases hscalar : AreDigits 16 content ∧ (numberOf 16 content).isValidChar
    · have hread := bind_scalarValue?_eq_some_iff.2 ⟨content, .inl rfl, hscalar.1, hscalar.2, rfl⟩
      refine ⟨.char (Char.ofNat (numberOf 16 content)), rest, ⟨?_, hshorter, ?_⟩⟩
      · have hcut : 'u' :: '{' :: (content ++ '}' :: rest) =
            'u' :: '{' :: (content ++ ['}']) ++ rest := by simp
        rw [hcut]
        refine .escape (.codePoint hscalar.1 hscalar.2) fun other e hother hbegins => ?_
        rw [(eq_of_prefix_closed hcontent hother (hcut ▸ hbegins)).2.2]
      · rw [unescapeDouble_backslash, hescape, fst_braceEscape_of_some hcontent hread]
        rfl
    · refine ⟨.refused content, rest, ⟨.refused hcontent ?_, hshorter, ?_⟩⟩
      · intro spelling c hspelling hbegins
        obtain ⟨hdigits, hvalid, -⟩ := eq_of_prefix_closed hcontent hspelling hbegins
        exact hscalar ⟨hdigits, hvalid⟩
      · rw [unescapeDouble_backslash, hescape]
        rfl
  · refine ⟨.unclosed inner, [], ⟨.unclosed hclosed, Nat.zero_le _, ?_⟩⟩
    rw [unescapeDouble_backslash, hescape, snd_braceEscape_of_unclosed hclosed]
    rfl

theorem taken_u (hbrace : ∀ inner, cs ≠ '{' :: inner) :
    Taken ('u' :: cs) (.char '\\') ('u' :: cs) := by
  have hescape : escape ('u' :: cs) = (['\\', 'u'], cs) := by
    cases cs with
    | nil => rfl
    | cons c more =>
        -- The first fact rules the branch of the brace out.
        have hc : c ≠ '{' := fun heq => hbrace more (heq ▸ rfl)
        have hletter : letterEscape? 'u' = none := rfl
        have hoctal : isOctal 'u' = false := by decide
        simp [escape, hletter, hoctal]
  refine taken_backslash ?_ ?_ ?_
  · intro spelling c hspelling hbegins
    obtain ⟨more, rfl, hmore⟩ := hspelling.exists_cons hbegins
    obtain ⟨ds, rfl, -, -, -⟩ := isEscape_u hspelling
    obtain ⟨tail, rfl⟩ := hmore
    exact hbrace _ rfl
  · rintro ⟨tail, htail⟩
    exact hbrace tail (List.cons.inj htail).2.symm
  · rw [unescapeDouble_backslash, hescape, unescapeDouble_cons (by decide)]
    rfl

theorem taken_other (hletter : ∀ d, (c, d) ∉ letterEscapes) (hoctal : ¬ digitOf c < 8)
    (hx : c ≠ 'x') (hu : c ≠ 'u') (rest : List Char) :
    Taken (c :: rest) (.char '\\') (c :: rest) := by
  have hescape : escape (c :: rest) = (['\\'], c :: rest) := by
    unfold escape
    simp only [letterEscape?_eq_none hletter, isOctal_iff, hoctal, hx, hu, if_false]
  refine taken_backslash ?_ ?_ ?_
  · intro spelling d hspelling hbegins
    obtain ⟨more, rfl, -⟩ := hspelling.exists_cons hbegins
    cases hspelling with
    | letter h => exact hletter _ h
    | octal h => exact hoctal (h.lt c List.mem_cons_self)
    | hexadecimal => exact hx rfl
    | codePoint => exact hu rfl
  · intro hbegins
    exact hu (List.cons_prefix_cons.1 hbegins).1.symm
  · rw [unescapeDouble_backslash, hescape]
    rfl

theorem exists_taken (cs : List Char) : ∃ part rest, Taken cs part rest := by
  cases cs with
  | nil =>
      refine ⟨_, _, taken_backslash (fun spelling c hspelling hbegins => ?_) (by simp) ?_⟩
      · exact hspelling.ne_nil (List.prefix_nil.1 hbegins)
      · rw [unescapeDouble_backslash]
        rfl
  | cons c rest =>
      by_cases hletter : ∃ d, (c, d) ∈ letterEscapes
      · obtain ⟨d, hd⟩ := hletter
        exact ⟨_, _, taken_letter hd rest⟩
      by_cases hoctal : digitOf c < 8
      · exact exists_taken_octal hoctal rest
      by_cases hx : c = 'x'
      · exact hx ▸ exists_taken_x rest
      by_cases hu : c = 'u'
      · subst hu
        by_cases hbrace : ∃ inner, rest = '{' :: inner
        · obtain ⟨inner, rfl⟩ := hbrace
          exact exists_taken_brace inner
        · exact ⟨_, _, taken_u fun inner hinner => hbrace ⟨inner, hinner⟩⟩
      · exact ⟨_, _, taken_other (not_exists.1 hletter) hoctal hx hu rest⟩

theorem exists_reads (inner : List Char) :
    ∃ parts, Reads inner parts ∧ unescapeDouble inner = parts.flatMap Part.written := by
  induction hlength : inner.length using Nat.strongRecOn generalizing inner with
  | ind k ih =>
      cases inner with
      | nil => exact ⟨[], .nil, by simp [unescapeDouble]⟩
      | cons c cs =>
          rw [List.length_cons] at hlength
          by_cases hc : c = '\\'
          · subst hc
            obtain ⟨part, rest, htaken⟩ := exists_taken cs
            have hshorter := htaken.length
            obtain ⟨parts, hreads, hwritten⟩ := ih rest.length (by omega) rest rfl
            refine ⟨part :: parts, .opened htaken.opens hreads, ?_⟩
            rw [htaken.unescape, hwritten, List.flatMap_cons]
          · obtain ⟨parts, hreads, hwritten⟩ := ih cs.length (by omega) cs rfl
            refine ⟨.char c :: parts, .plain hc hreads, ?_⟩
            rw [unescapeDouble_cons hc, hwritten]
            rfl

/-! ## Where both texts are the same -/

/-- Whether a part comes out as what it stands for: the braces of a code point are closed, and its
digits have no sign. -/
def Part.IsRegular : Part → Prop
  | char _ => True
  | refused content => ∀ ds, content = '+' :: ds → AreDigits 16 ds →
      ¬ (numberOf 16 ds).isValidChar
  | unclosed _ => False

/-- What is made of a part is its meaning, or it is shorter by two characters at least, or the part
is the last one and it is longer by one character at most. -/
inductive Compared (part : Part) (rest : List Char) : Prop
  | same (hregular : part.IsRegular) (h : part.written = part.meaning)
  | shorter (hregular : ¬ part.IsRegular) (h : part.written.length + 2 ≤ part.meaning.length)
  | last (hregular : ¬ part.IsRegular) (hrest : rest = [])
      (hne : part.written.length ≠ part.meaning.length)
      (hle : part.written.length ≤ part.meaning.length + 1)

theorem compared_refused (hclosed : '}' ∉ content)
    (hnone : NoEscape ('u' :: '{' :: (content ++ '}' :: rest))) :
    Compared (.refused content) rest := by
  have hcut : 'u' :: '{' :: (content ++ '}' :: rest) =
      'u' :: '{' :: (content ++ ['}']) ++ rest := by simp
  by_cases hsigned : ∃ ds, content = '+' :: ds ∧ AreDigits 16 ds ∧ (numberOf 16 ds).isValidChar
  · obtain ⟨ds, rfl, hdigits, hscalar⟩ := hsigned
    have hread := bind_scalarValue?_eq_some_iff.2 ⟨ds, .inr rfl, hdigits, hscalar, rfl⟩
    refine .shorter (fun hregular => hregular ds rfl hdigits hscalar) ?_
    rw [Part.written, fst_braceEscape_of_some hclosed hread, Part.meaning]
    simp
  · have hregular : (Part.refused content).IsRegular := fun ds hds hdigits hscalar =>
      hsigned ⟨ds, hds, hdigits, hscalar⟩
    have hread : (readNat? 16 content).bind scalarValue? = none := by
      rw [Option.eq_none_iff_forall_ne_some]
      intro c hc
      obtain ⟨ds, rfl | hplus, hdigits, hscalar, -⟩ := bind_scalarValue?_eq_some_iff.1 hc
      · exact (hcut ▸ hnone).not_isEscape (.codePoint hdigits hscalar)
      · exact hregular ds hplus hdigits hscalar
    exact .same hregular (fst_braceEscape_of_none hclosed hread)

theorem compared_unclosed (hopen : '}' ∉ content) : Compared (.unclosed content) [] := by
  have hlength : (Part.unclosed content).meaning.length = content.length + 3 := rfl
  have hwritten : (Part.unclosed content).written.length = 1 ∨
      (Part.unclosed content).written.length = content.length + 4 := by
    rw [Part.written]
    cases hread : (readNat? 16 content).bind scalarValue? with
    | some c => exact .inl (by rw [fst_braceEscape_of_some hopen hread, List.length_singleton])
    | none => exact .inr (by rw [fst_braceEscape_of_none hopen hread]; simp)
  exact .last id rfl (by omega) (by omega)

theorem Opens.compared (h : Opens cs part rest) : Compared part rest := by
  cases h with
  | escape => exact .same trivial rfl
  | refused hclosed hnone => exact compared_refused hclosed hnone
  | unclosed hopen => exact compared_unclosed hopen
  | backslash => exact .same trivial rfl

/-- The text that is made of the parts is what they stand for, or it has another length. -/
theorem Reads.written_or (h : Reads inner parts) :
    (∀ p ∈ parts, p.IsRegular) ∧ parts.flatMap Part.written = parts.flatMap Part.meaning ∨
      (¬ ∀ p ∈ parts, p.IsRegular) ∧
        (parts.flatMap Part.written).length ≠ (parts.flatMap Part.meaning).length ∧
        (parts.flatMap Part.written).length ≤ (parts.flatMap Part.meaning).length + 1 := by
  induction h with
  | nil => exact .inl ⟨List.forall_mem_nil _, rfl⟩
  | @plain c cs parts hc h ih =>
      have hwritten : (Part.char c).written = [c] := rfl
      have hmeaning : (Part.char c).meaning = [c] := rfl
      simp only [List.forall_mem_cons, List.flatMap_cons, hwritten, hmeaning, List.length_append,
        List.append_cancel_left_eq]
      rcases ih with ⟨hall, hsame⟩ | ⟨hall, hne, hle⟩
      · exact .inl ⟨⟨trivial, hall⟩, hsame⟩
      · exact .inr ⟨fun h => hall h.2, by omega, by omega⟩
  | @opened cs rest part parts hpart h ih =>
      simp only [List.forall_mem_cons, List.flatMap_cons, List.length_append]
      cases hpart.compared with
      | same hregular hsame =>
          rw [hsame]
          rcases ih with ⟨hall, heq⟩ | ⟨hall, hne, hle⟩
          · exact .inl ⟨⟨hregular, hall⟩, by rw [heq]⟩
          · exact .inr ⟨fun h => hall h.2, by omega, by omega⟩
      | shorter hregular hshorter =>
          have htail : (parts.flatMap Part.written).length ≤
              (parts.flatMap Part.meaning).length + 1 := by
            rcases ih with ⟨-, heq⟩ | ⟨-, -, hle⟩
            · rw [heq]
              exact Nat.le_succ _
            · exact hle
          exact .inr ⟨fun h => hregular h.1, by omega, by omega⟩
      | last hregular hrest hne hle =>
          subst hrest
          cases h
          exact .inr ⟨fun h => hregular h.1, by simpa using hne, by simpa using hle⟩

/-! ## What tokens are read as -/

theorem doubleQuoted?_token {mark : List Char} (hmark : mark ∈ [[], ['b'], ['B']])
    (inner : List Char) :
    doubleQuoted? (mark ++ '"' :: (inner ++ ['"'])) = some (unescapeDouble inner) := by
  have hunquote : unquote? '"' (mark ++ '"' :: (inner ++ ['"'])) = some inner := by
    simp only [List.mem_cons, List.not_mem_nil, or_false] at hmark
    rcases hmark with rfl | rfl | rfl <;> simp [unquote?]
  rw [doubleQuoted?, hunquote, Option.map_some]

/-- The text inside a double-quoted token has one reading by the grammar of escapes, and the token
is read as what the parts of this reading stand for exactly if all of them are regular: every code
point in braces is closed and has no sign. -/
theorem doubleQuoted?_eq_meaning_iff {mark : List Char} (hmark : mark ∈ [[], ['b'], ['B']])
    (inner : List Char) :
    ∃ parts, Reads inner parts ∧ (∀ other, Reads inner other → other = parts) ∧
      ∃ out, doubleQuoted? (mark ++ '"' :: (inner ++ ['"'])) = some out ∧
        (out = parts.flatMap Part.meaning ↔ ∀ p ∈ parts, p.IsRegular) := by
  obtain ⟨parts, hreads, hwritten⟩ := exists_reads inner
  refine ⟨parts, hreads, fun other hother => hother.unique hreads, unescapeDouble inner,
    doubleQuoted?_token hmark inner, ?_⟩
  rw [hwritten]
  rcases hreads.written_or with ⟨hall, hsame⟩ | ⟨hall, hne, -⟩
  · exact iff_of_true hsame hall
  · exact iff_of_false (fun heq => hne (congrArg List.length heq)) hall

/-- A token with a mark, an octal escape, a code point and a backslash that opens no escape. -/
theorem doubleQuoted?_eq_meaning_mixed :
    let inner := ['\\', '1', '0', '1', '\\', 'u', '{', '1', 'F', '6', '0', '0', '}', '\\', 'q']
    ['b'] ∈ [[], ['b'], ['B']] ∧
      ∃ parts, Reads inner parts ∧ (∀ other, Reads inner other → other = parts) ∧
        ∃ out, doubleQuoted? (['b'] ++ '"' :: (inner ++ ['"'])) = some out ∧
          (out = parts.flatMap Part.meaning ↔ ∀ p ∈ parts, p.IsRegular) :=
  ⟨by decide, doubleQuoted?_eq_meaning_iff (by decide) _⟩

/-- A code point whose braces are never closed is replaced all the same. -/
theorem not_doubleQuoted?_eq_meaning_unclosed :
    ¬ ∀ inner parts, Reads inner parts →
      doubleQuoted? ('"' :: (inner ++ ['"'])) = some (parts.flatMap Part.meaning) := by
  intro h
  have hreads : Reads ['\\', 'u', '{', '4', '1'] [.unclosed ['4', '1']] :=
    .opened (.unclosed (by decide)) .nil
  have hread : doubleQuoted? ('"' :: (['\\', 'u', '{', '4', '1'] ++ ['"'])) = some ['A'] := by
    decide +kernel
  have hsame := h _ _ hreads
  rw [hread] at hsame
  cases hsame

end Resettle.Php.Literal
