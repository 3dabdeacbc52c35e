import Resettle.Inventory.Json
import Resettle.Proofs.Dictionary
import Resettle.Proofs.Json.Spelling

/-!
# Records are read back

Values that hold words only and are not nested too deep, and how their parts are read back: texts,
lists, dictionaries and records with members of distinct names.
-/

namespace Resettle

namespace Json

/-! ## Parts of values -/

theorem allSound_iff {items : List Json} :
    allSound items = true ↔ ∀ j ∈ items, j.isSound = true := by
  induction items with
  | nil => simp [allSound]
  | cons j items ih => simp [allSound, ih]

theorem isSound_record_iff {members : List (String × Json)} :
    (record members).isSound = true ↔ ∀ m ∈ members, m.2.isSound = true := by
  show membersSound (members.map fun m => (some m.1, m.2)) = true ↔ _
  induction members with
  | nil => simp [membersSound]
  | cons m members ih =>
      rw [List.map_cons, membersSound, Bool.and_eq_true, Bool.and_eq_true, ih,
        List.forall_mem_cons]
      simp

theorem depth_array_le_iff {items : List Json} {n : Nat} :
    (array items).depth ≤ n + 1 ↔ ∀ j ∈ items, j.depth ≤ n := by
  rw [depth, Nat.succ_le_succ_iff]
  induction items with
  | nil => simp [maxDepth]
  | cons j items ih => rw [maxDepth, Nat.max_le, ih, List.forall_mem_cons]

theorem depth_record_le_iff {members : List (String × Json)} {n : Nat} :
    (record members).depth ≤ n + 1 ↔ ∀ m ∈ members, m.2.depth ≤ n := by
  rw [record, depth, Nat.succ_le_succ_iff]
  induction members with
  | nil => simp [membersDepth]
  | cons m members ih =>
      rw [List.map_cons, membersDepth, Nat.max_le, ih, List.forall_mem_cons]

theorem forall_mem_tokens_array {items : List Json}
    (h : ∀ j ∈ items, ∀ t ∈ j.tokens, t.IsWord) :
    ∀ t ∈ (array items).tokens, t.IsWord := by
  have hitems : ∀ t ∈ itemTokens items, t.IsWord := by
    induction items with
    | nil => simpa [itemTokens] using Token.IsWord.closeArray
    | cons j items ih =>
        obtain ⟨hj, hitems⟩ := List.forall_mem_cons.1 h
        have hrest := ih hitems
        cases items with
        | nil => simpa [itemTokens, or_imp, forall_and] using ⟨hj, Token.IsWord.closeArray⟩
        | cons j' items =>
            simpa [itemTokens, or_imp, forall_and] using ⟨hj, Token.IsWord.comma, hrest⟩
  exact List.forall_mem_cons.2 ⟨.openArray, hitems⟩

theorem forall_mem_tokens_record {members : List (String × Json)}
    (h : ∀ m ∈ members, ∀ t ∈ m.2.tokens, t.IsWord) :
    ∀ t ∈ (record members).tokens, t.IsWord := by
  have hmembers : ∀ t ∈ memberTokens (members.map fun m => (some m.1, m.2)), t.IsWord := by
    induction members with
    | nil => simpa [memberTokens] using Token.IsWord.closeObject
    | cons m members ih =>
        obtain ⟨hm, hmembers⟩ := List.forall_mem_cons.1 h
        have hrest := ih hmembers
        have hname := Token.IsWord.string m.1
        cases members with
        | nil =>
            simpa [memberTokens, or_imp, forall_and] using
              ⟨hname, Token.IsWord.colon, hm, Token.IsWord.closeObject⟩
        | cons m' members =>
            rw [List.map_cons, List.map_cons, memberTokens]
            · simpa [or_imp, forall_and] using
                ⟨hname, Token.IsWord.colon, hm, Token.IsWord.comma, hrest⟩
            · simp
  exact List.forall_mem_cons.2 ⟨.openObject, hmembers⟩

/-! ## Words in containers -/

/-- A value without numerals in which every string is a text and at most `n` containers lie around
any part. -/
inductive Shallow : Nat → Json → Prop
  | null (n : Nat) : Shallow n .null
  | bool (n : Nat) (b : Bool) : Shallow n (.bool b)
  | text (n : Nat) (s : String) : Shallow n (.text s)
  | array {n : Nat} {items : List Json} (h : ∀ j ∈ items, Shallow n j) :
      Shallow (n + 1) (.array items)
  | record {n : Nat} {members : List (String × Json)} (h : ∀ m ∈ members, Shallow n m.2) :
      Shallow (n + 1) (.record members)

namespace Shallow

variable {n m : Nat} {j : Json}

theorem mono (h : Shallow n j) (hle : n ≤ m) : Shallow m j := by
  induction h generalizing m with
  | null n => exact .null m
  | bool n b => exact .bool m b
  | text n s => exact .text m s
  | array _ ih =>
      obtain ⟨m, rfl⟩ := Nat.exists_eq_add_of_le' hle
      exact .array fun j hj => ih j hj (Nat.le_add_left _ _)
  | record _ ih =>
      obtain ⟨m, rfl⟩ := Nat.exists_eq_add_of_le' hle
      exact .record fun member hmember => ih member hmember (Nat.le_add_left _ _)

theorem isSound_eq (h : Shallow n j) : j.isSound = true := by
  induction h with
  | null | bool | text => rfl
  | array _ ih => exact allSound_iff.2 ih
  | record _ ih => exact isSound_record_iff.2 ih

theorem depth_le (h : Shallow n j) : j.depth ≤ n := by
  induction h with
  | null | bool | text => exact Nat.zero_le _
  | array _ ih => exact depth_array_le_iff.2 ih
  | record _ ih => exact depth_record_le_iff.2 ih

theorem isWord (h : Shallow n j) : ∀ t ∈ j.tokens, t.IsWord := by
  induction h with
  | null => exact List.forall_mem_singleton.2 .null
  | bool _ b => exact List.forall_mem_singleton.2 (.bool b)
  | text _ s => exact List.forall_mem_singleton.2 (.string s)
  | array _ ih => exact forall_mem_tokens_array ih
  | record _ ih => exact forall_mem_tokens_record ih

theorem ofText?_spell (h : Shallow n j) :
    ofText? j.compact = some j ∧ ofText? j.pretty = some j :=
  Json.ofText?_spell j h.isWord

theorem ofText (n : Nat) (s : Option String) : Shallow n (ofText s) := by
  cases s with
  | none => exact .null n
  | some s => exact .text n s

theorem map {α : Type} {toJson : α → Json} (h : ∀ x, Shallow n (toJson x)) (xs : List α) :
    Shallow (n + 1) (.array (xs.map toJson)) := by
  refine .array fun j hj => ?_
  obtain ⟨x, -, rfl⟩ := List.mem_map.1 hj
  exact h x

theorem ofTexts (xs : List String) : Shallow 1 (ofTexts xs) :=
  map (Shallow.text 0) xs

theorem ofDictionary {α : Type} {toJson : α → Json} (h : ∀ x, Shallow n (toJson x))
    (d : Dictionary String α) : Shallow (n + 1) (ofDictionary toJson d) := by
  refine .record fun m hm => ?_
  obtain ⟨e, -, rfl⟩ := List.mem_map.1 hm
  exact h e.2

theorem textsMember (name : String) (xs : List String) :
    ∀ m ∈ textsMember name xs, Shallow 1 m.2 := by
  intro m hm
  unfold Json.textsMember at hm
  split at hm
  · cases hm
  · obtain rfl := List.mem_singleton.1 hm
    exact ofTexts xs

end Shallow

/-! ## Reading parts -/

section

variable {α : Type} {toJson : α → Json} {read? : Json → Option α}

theorem asList?_map (h : ∀ x, read? (toJson x) = some x) (xs : List α) :
    asList? read? (.array (xs.map toJson)) = some xs := by
  unfold asList?
  induction xs with
  | nil => rfl
  | cons x xs ih => simp [h, ih]

@[simp] theorem asText?_text (s : String) : asText? (text s) = some s :=
  rfl

@[simp] theorem asBool?_bool (b : Bool) : asBool? (.bool b) = some b :=
  rfl

@[simp] theorem asTexts?_ofTexts (xs : List String) : asTexts? (ofTexts xs) = some xs :=
  asList?_map asText?_text xs

theorem asMembers?_record (h : ∀ x, read? (toJson x) = some x) (es : List (String × α)) :
    asMembers? read? (.record (es.map fun e => (e.1, toJson e.2))) = some es := by
  unfold asMembers? record
  dsimp only
  induction es with
  | nil => rfl
  | cons e es ih =>
      rw [List.map_cons, List.map_cons, List.mapM_cons, ih]
      simp only [h]
      rfl

theorem asDictionary?_ofDictionary (h : ∀ x, read? (toJson x) = some x)
    (d : Dictionary String α) : asDictionary? read? (ofDictionary toJson d) = some d := by
  rw [asDictionary?, ofDictionary, asMembers?_record h, Option.map_some,
    Dictionary.ofList_entries]

end

namespace Record

variable {α : Type}

/-- A record is read off the value of its members, all of them of distinct known names. -/
theorem ofJson?_record {names : List String} {members : List (String × Json)}
    (hnodup : (members.map Prod.fst).Nodup)
    (hknown : ∀ name ∈ members.map Prod.fst, name ∈ names) :
    ofJson? names (.record members) = some ⟨true, members⟩ := by
  have hmembers : ofMembers? names (members.map fun m => (some m.1, m.2)) = some members := by
    induction members with
    | nil => rfl
    | cons m members ih =>
        rw [List.map_cons, List.nodup_cons] at hnodup
        rw [List.map_cons, List.forall_mem_cons] at hknown
        rw [List.map_cons, ofMembers?, ih hnodup.2 hknown.2]
        simp only [hknown.1, not_true_eq_false, if_false, if_neg hnodup.1]
  show (ofMembers? names (members.map fun m => (some m.1, m.2))).map _ = _
  rw [hmembers, Option.map_some]

@[simp] theorem nullable?_ofText (s : Option String) : nullable? asText? (ofText s) = some s := by
  cases s <;> rfl

theorem nullable?_of_ne {read? : Json → Option α} {j : Json} (h : j ≠ .null) :
    nullable? read? j = (read? j).map some := by
  cases j with
  | null => exact absurd rfl h
  | _ => rfl

end Record

end Json

end Resettle
