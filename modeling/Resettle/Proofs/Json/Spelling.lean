import Resettle.Json.Reader
import Resettle.Json.Writer
import Resettle.Proofs.Json.Strings

/-!
# Spellings are read back

Both spellings of a value spell its tokens, with blanks between them at most, and the value is
built again from its tokens.
-/

namespace Resettle.Json

namespace Token

/-- A token that is not a numeral and, if it is a string, is a text. -/
inductive IsWord : Token → Prop
  | openArray : IsWord .openArray
  | closeArray : IsWord .closeArray
  | openObject : IsWord .openObject
  | closeObject : IsWord .closeObject
  | comma : IsWord .comma
  | colon : IsWord .colon
  | null : IsWord .null
  | bool (b : Bool) : IsWord (.bool b)
  | string (s : String) : IsWord (.string (some s))

variable {t : Token} {ts ts' : List Token} {cs cs' : List Char}

theorem IsWord.read?_text (h : t.IsWord) (rest : List Char) :
    read? (t.text ++ rest) = some (t, rest) := by
  cases h with
  | bool b => cases b <;> rfl
  | string s =>
      have hpieces := readPieces?_quoted s.toList rest
      have htext : assemble? (s.toList.map piece) = some s.toList := assemble?_piece s.toList
      simp only [text, quoted, Option.getD_some, List.cons_append, List.append_assoc,
        List.nil_append, read?, hpieces, Option.map_some, htext, String.ofList_toList]
  | _ => rfl

theorem IsWord.exists_text (h : t.IsWord) :
    ∃ c rest, t.text = c :: rest ∧ isBlank c = false := by
  cases h with
  | bool b => cases b <;> exact ⟨_, _, rfl, rfl⟩
  | _ => exact ⟨_, _, rfl, rfl⟩

/-! ## Texts that spell tokens -/

/-- A text spells tokens if it is their spellings with blanks in front of each. -/
inductive Spells : List Token → List Char → Prop
  | nil : Spells [] []
  | blank {ts : List Token} {cs : List Char} (c : Char) (hc : isBlank c = true)
      (h : Spells ts cs) : Spells ts (c :: cs)
  | token {ts : List Token} {cs : List Char} (t : Token) (h : Spells ts cs) :
      Spells (t :: ts) (t.text ++ cs)

theorem Spells.append (h : Spells ts cs) (h' : Spells ts' cs') :
    Spells (ts ++ ts') (cs ++ cs') := by
  induction h with
  | nil => exact h'
  | blank c hc _ ih => exact ih.blank c hc
  | token t _ ih =>
      rw [List.append_assoc]
      exact ih.token t

theorem Spells.blanks {blanks : List Char} (hblanks : blanks.all isBlank = true)
    (h : Spells ts cs) : Spells ts (blanks ++ cs) := by
  induction blanks with
  | nil => exact h
  | cons c blanks ih =>
      rw [List.all_cons, Bool.and_eq_true] at hblanks
      exact (ih hblanks.2).blank c hblanks.1

theorem spells_text (t : Token) : Spells [t] t.text := by
  rw [← List.append_nil t.text]
  exact Spells.nil.token t

theorem spells_flatMap (ts : List Token) : Spells ts (ts.flatMap text) := by
  induction ts with
  | nil => exact .nil
  | cons t ts ih => exact ih.token t

/-- Tokens that are no numerals are cut out of their spelling, with enough fuel. -/
theorem Spells.readAll? (h : Spells ts cs) (hwords : ∀ t ∈ ts, t.IsWord) {fuel : Nat}
    (hfuel : cs.length ≤ fuel) : Token.readAll? fuel cs = some ts := by
  induction h generalizing fuel with
  | nil =>
      rw [Token.readAll?]
      rfl
  | @blank ts cs c hc h ih =>
      have hrest := ih hwords (Nat.le_trans (Nat.le_succ _) hfuel)
      rw [Token.readAll?] at hrest ⊢
      rw [List.dropWhile_cons_of_pos hc]
      exact hrest
  | @token ts cs t h ih =>
      obtain ⟨ht, hwords⟩ := List.forall_mem_cons.1 hwords
      obtain ⟨c, rest, htext, hc⟩ := ht.exists_text
      have hread := ht.read?_text cs
      rw [htext, List.cons_append] at hread hfuel ⊢
      cases fuel with
      | zero => exact absurd hfuel (by simp)
      | succ fuel =>
          have hlength : cs.length ≤ fuel := by
            simp only [List.length_cons, List.length_append] at hfuel
            omega
          rw [Token.readAll?, List.dropWhile_cons_of_neg (by simp [hc])]
          simp only [hread, ih hwords hlength, Option.map_some]

theorem ofText?_of_spells {s : String} (h : Spells ts s.toList) (hwords : ∀ t ∈ ts, t.IsWord) :
    ofText? s = some ts :=
  h.readAll? hwords (Nat.le_refl _)

end Token

open Token (Spells)

/-! ## The two spellings -/

theorem Token.Spells.newLine {ts : List Token} {cs : List Char} (depth : Nat) (h : Spells ts cs) :
    Spells ts (newLine depth ++ cs) :=
  h.blanks (by simp [Json.newLine, Token.isBlank])

mutual

theorem spells_prettyAt (depth : Nat) : ∀ j : Json, Spells j.tokens (prettyAt depth j)
  | .array [] => Token.spells_flatMap [.openArray, .closeArray]
  | .array (j :: rest) => (spells_prettyItems depth (j :: rest)).token .openArray
  | .object [] => Token.spells_flatMap [.openObject, .closeObject]
  | .object (m :: rest) => (spells_prettyMembers depth (m :: rest)).token .openObject
  | .null => Token.spells_text .null
  | .bool b => Token.spells_text (.bool b)
  | .number n => Token.spells_text (.number n)
  | .string s => Token.spells_text (.string s)

theorem spells_prettyItems (depth : Nat) :
    ∀ items : List Json, Spells (itemTokens items) (prettyItems depth items)
  | [] => (Token.spells_text .closeArray).newLine depth
  | [j] => by
      have hend := (Token.spells_text .closeArray).newLine depth
      have hitem := (spells_prettyAt (depth + 1) j).append hend
      rw [itemTokens, prettyItems, List.append_assoc, List.append_assoc]
      exact hitem.newLine (depth + 1)
  | j :: j' :: rest => by
      have hrest := (spells_prettyItems depth (j' :: rest)).token .comma
      have hitem := (spells_prettyAt (depth + 1) j).append hrest
      rw [itemTokens, prettyItems, List.append_assoc]
      · exact hitem.newLine (depth + 1)
      all_goals simp

theorem spells_prettyMembers (depth : Nat) :
    ∀ members : List (Option String × Json),
      Spells (memberTokens members) (prettyMembers depth members)
  | [] => (Token.spells_text .closeObject).newLine depth
  | [(name, j)] => by
      have hend := (Token.spells_text .closeObject).newLine depth
      have hvalue := ((spells_prettyAt (depth + 1) j).append hend).blank ' ' rfl
      have hmember := (hvalue.token .colon).token (.string name)
      rw [memberTokens, prettyMembers]
      simp only [List.append_assoc, List.cons_append]
      exact hmember.newLine (depth + 1)
  | (name, j) :: m :: rest => by
      have hrest := (spells_prettyMembers depth (m :: rest)).token .comma
      have hvalue := ((spells_prettyAt (depth + 1) j).append hrest).blank ' ' rfl
      have hmember := (hvalue.token .colon).token (.string name)
      rw [memberTokens, prettyMembers]
      · simp only [List.append_assoc, List.cons_append]
        exact hmember.newLine (depth + 1)
      all_goals simp

end

theorem spells_compact (j : Json) : Spells j.tokens j.compact.toList := by
  rw [compact, String.toList_ofList]
  exact Token.spells_flatMap j.tokens

theorem spells_pretty (j : Json) : Spells j.tokens j.pretty.toList := by
  rw [pretty, String.toList_ofList]
  exact spells_prettyAt 0 j

/-! ## Building values from their tokens -/

theorem build?_openArray {ts : List Token} (h : ts.head? ≠ some .closeArray)
    (stack : List Frame) : build? stack (.openArray :: ts) = build? (.array [] :: stack) ts := by
  cases ts with
  | nil => rw [build?]; simp
  | cons t ts =>
      rw [build?]
      intro rest hrest
      obtain ⟨rfl, -⟩ := List.cons.inj hrest
      exact h rfl

theorem exists_tokens (j : Json) :
    ∃ t ts, j.tokens = t :: ts ∧ t ≠ .closeArray := by
  cases j <;> exact ⟨_, _, rfl, by simp⟩

theorem head?_itemTokens (j : Json) (rest : List Json) (ts : List Token) :
    (itemTokens (j :: rest) ++ ts).head? ≠ some .closeArray := by
  obtain ⟨t, more, hj, ht⟩ := exists_tokens j
  cases rest <;> simp [itemTokens, hj, ht]

theorem memberTokens_cons (m : Option String × Json) (rest : List (Option String × Json))
    (ts : List Token) :
    memberTokens (m :: rest) ++ ts =
      .string m.1 :: .colon :: (memberTokens (m :: rest) ++ ts).drop 2 := by
  cases rest <;> simp [memberTokens]

/-! A value takes its own tokens and goes on with the containers that are open around it; the
induction is on the value, with the open containers and all that follows left free. -/

mutual

theorem build?_tokens (stack : List Frame) (ts : List Token) :
    ∀ j : Json, build? stack (j.tokens ++ ts) = resume? j stack ts
  | .null | .bool _ | .number _ | .string _ | .array [] | .object [] => by
      simp only [tokens, itemTokens, memberTokens, List.cons_append, List.nil_append]
      rw [build?]
  | .array (j :: rest) => by
      have hhead := head?_itemTokens j rest ts
      rw [tokens, List.cons_append, build?_openArray hhead]
      exact build?_itemTokens stack ts [] (j :: rest) (List.cons_ne_nil _ _)
  | .object (m :: rest) => by
      have hmembers := build?_memberTokens stack ts [] (m :: rest) (List.cons_ne_nil _ _)
      rw [tokens, List.cons_append, memberTokens_cons, build?]
      exact hmembers

theorem build?_itemTokens (stack : List Frame) (ts : List Token) (held : List Json) :
    ∀ items : List Json, items ≠ [] →
      build? (.array held :: stack) (itemTokens items ++ ts) =
        resume? (.array (held.reverse ++ items)) stack ts
  | [], h => absurd rfl h
  | [j], _ => by
      rw [itemTokens, List.append_assoc, build?_tokens _ _ j, List.cons_append, resume?,
        List.reverse_cons]
      rfl
  | j :: j' :: rest, _ => by
      have hrest := build?_itemTokens stack ts (j :: held) (j' :: rest) (List.cons_ne_nil _ _)
      rw [itemTokens, List.append_assoc, build?_tokens _ _ j, List.cons_append, resume?, hrest,
        List.reverse_cons, List.append_assoc]
      · rfl
      · simp

/-- The name of the first member is with the open object already. -/
theorem build?_memberTokens (stack : List Frame) (ts : List Token)
    (held : List (Option String × Json)) :
    ∀ (members : List (Option String × Json)) (h : members ≠ []),
      build? (.object held (members.head h).1 :: stack) ((memberTokens members ++ ts).drop 2) =
        resume? (.object (held.reverse ++ members)) stack ts
  | [], h => absurd rfl h
  | [(name, j)], _ => by
      have hvalue := build?_tokens (.object held name :: stack) (.closeObject :: ts) j
      rw [resume?, List.reverse_cons] at hvalue
      rw [memberTokens, ← hvalue]
      simp
  | (name, j) :: m :: rest, _ => by
      have hrest := build?_memberTokens stack ts ((name, j) :: held) (m :: rest)
        (List.cons_ne_nil _ _)
      have hvalue := build?_tokens (.object held name :: stack)
        (.comma :: (memberTokens (m :: rest) ++ ts)) j
      rw [memberTokens_cons, resume?] at hvalue
      rw [memberTokens]
      · simp only [List.cons_append, List.append_assoc, List.drop_succ_cons, List.drop_zero]
        rw [memberTokens_cons]
        refine hvalue.trans (hrest.trans ?_)
        rw [List.reverse_cons, List.append_assoc]
        rfl
      · simp

end

/-- A value whose tokens are words can be read back from either spelling. -/
theorem ofText?_spell (j : Json) (h : ∀ t ∈ j.tokens, t.IsWord) :
    ofText? j.compact = some j ∧ ofText? j.pretty = some j := by
  have hbuild : build? [] j.tokens = some j := by
    have hnil := build?_tokens [] [] j
    rwa [List.append_nil, resume?] at hnil
  unfold ofText?
  rw [Token.ofText?_of_spells (spells_compact j) h, Token.ofText?_of_spells (spells_pretty j) h]
  exact ⟨hbuild, hbuild⟩

end Resettle.Json
