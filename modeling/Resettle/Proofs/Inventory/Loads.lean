import Resettle.Proofs.Dictionary
import Resettle.Proofs.Inventory.Methods
import Resettle.Proofs.Php.Shapes

/-!
# What methods load

The shapes of the calls that load something, and what is bound behind some nodes.  A handle is
bound as soon as a method or a constructor loads something under it, and stays bound; what it
stands for is always something that was loaded under it.
-/

namespace Resettle

open Php (Node)

theorem firstString?_eq_some_iff {args : List Node} {s : String} :
    firstString? args = some s ↔ ∃ rest, args = .text s :: rest := by
  cases args with
  | nil => simp [firstString?]
  | cons n rest => simp [firstString?, Node.string?_eq_some_iff]

theorem ownRead?_eq_some_iff {n : Node} {name : String} :
    ownRead? n = some name ↔ n = .own name := by
  cases n with
  | fetch object other => simp [ownRead?, Node.isThis_iff]
  | _ => simp [ownRead?]

/-! ## Loading calls -/

/-- The arguments of a call name a helper in the first of them: as a literal, or as a value of an
array. -/
inductive NamesHelper : List Node → String → Prop
  | literal {name : String} {rest : List Node} (h : name ≠ "") : NamesHelper (.text name :: rest) name
  | item {name : String} {key : Option Node} {items : List (Option Node × Node)} {rest : List Node}
      (h : name ≠ "") (hmem : (key, .text name) ∈ items) : NamesHelper (.array items :: rest) name

theorem mem_helperNames_iff {args : List Node} {name : String} :
    name ∈ helperNames args ↔ NamesHelper args name := by
  constructor
  · intro h
    obtain ⟨hnamed, hne⟩ := List.mem_filter.1 h
    have hne : name ≠ "" := of_decide_eq_true hne
    cases args with
    | nil => cases hnamed
    | cons n rest =>
        cases n with
        | array items =>
            obtain ⟨item, hitem, hvalue⟩ := List.mem_filterMap.1 hnamed
            have hpair : (item.1, Node.text name) ∈ items :=
              Node.string?_eq_some_iff.1 hvalue ▸ hitem
            exact .item hne hpair
        | literal v =>
            have hv : (Node.literal v).string? = some name := Option.mem_toList.1 hnamed
            rw [Node.string?_eq_some_iff.1 hv]
            exact .literal hne
        | _ => cases hnamed
  · intro h
    cases h with
    | literal hne => simp [helperNames, Node.string?, Node.literal?, Scalar.asString?, hne]
    | item hne hmem =>
        refine List.mem_filter.2 ⟨?_, decide_eq_true hne⟩
        exact List.mem_filterMap.2 ⟨_, hmem, rfl⟩

/-- What a node loads under a rule.  The loader has methods for models, libraries and helpers; a
model or a library is bound to the second argument if that is a literal, else to its own name.
There are functions for models and helpers, and a model may be assigned to a property. -/
inductive CallRule.Loads : CallRule → Node → Load → Prop
  | loaderHelper {property name : String} {args : List Node} (h : NamesHelper args name) :
      Loads (.loader property) (.methodCall (.own property) "helper" args) (.helper name)
  | loaderModel {property target : String} {rest : List Node} :
      Loads (.loader property) (.methodCall (.own property) "model" (.text target :: rest))
        (.bind ((rest.head?.bind Node.string?).getD target) ⟨.model, target⟩)
  | loaderLibrary {property target : String} {rest : List Node} :
      Loads (.loader property) (.methodCall (.own property) "library" (.text target :: rest))
        (.bind ((rest.head?.bind Node.string?).getD target) ⟨.library, target⟩)
  | helper {name : String} {args : List Node} (h : NamesHelper args name) :
      Loads .function (.call "helper" args) (.helper name)
  | model {target : String} {rest : List Node} :
      Loads .function (.call "model" (.text target :: rest))
        (.bind (shortName target) ⟨.model, target⟩)
  | assignedModel {handle target : String} {rest : List Node} :
      Loads .function (.assign (.own handle) (.call "model" (.text target :: rest)))
        (.bind handle ⟨.model, target⟩)

theorem DependencyKind.ofLoader?_eq_some_iff {method : String} {kind : DependencyKind} :
    ofLoader? method = some kind ↔
      (method = "model" ∧ kind = .model) ∨ (method = "library" ∧ kind = .library) ∨
        (method = "helper" ∧ kind = .helper) := by
  constructor
  · intro h
    unfold ofLoader? at h
    split at h
    · exact .inl ⟨rfl, (Option.some.inj h).symm⟩
    · exact .inr (.inl ⟨rfl, (Option.some.inj h).symm⟩)
    · exact .inr (.inr ⟨rfl, (Option.some.inj h).symm⟩)
    · cases h
  · rintro (⟨rfl, rfl⟩ | ⟨rfl, rfl⟩ | ⟨rfl, rfl⟩) <;> rfl

namespace CallRule

/-- A load that is made of the first argument, if that is a literal. -/
theorem mem_ofFirst_iff {args : List Node} {l : Load} (f : String → Load) :
    (l ∈ match firstString? args with
      | some target => [f target]
      | none => []) ↔ ∃ target rest, args = .text target :: rest ∧ l = f target := by
  cases hfirst : firstString? args with
  | none =>
      constructor
      · intro h
        cases h
      · rintro ⟨target, rest, hargs, -⟩
        rw [firstString?_eq_some_iff.2 ⟨rest, hargs⟩] at hfirst
        cases hfirst
  | some target =>
      obtain ⟨rest, hargs⟩ := firstString?_eq_some_iff.1 hfirst
      constructor
      · intro h
        exact ⟨target, rest, hargs, List.mem_singleton.1 h⟩
      · rintro ⟨target', rest', hargs', rfl⟩
        rw [firstString?_eq_some_iff.2 ⟨rest', hargs'⟩] at hfirst
        rw [Option.some.inj hfirst]
        exact List.mem_singleton_self _

theorem loads_of_mem_loader {property method : String} {object : Node} {args : List Node} {l : Load}
    (h : l ∈ (loader property).loads (.methodCall object method args)) :
    (loader property).Loads (.methodCall object method args) l := by
  change l ∈ if object.isOwnProperty property then _ else _ at h
  by_cases hown : object.isOwnProperty property = true
  · rw [if_pos hown] at h
    rw [Node.isOwnProperty_iff.1 hown]
    cases hkind : DependencyKind.ofLoader? method with
    | none =>
        rw [hkind] at h
        cases h
    | some kind =>
        rw [hkind] at h
        rcases DependencyKind.ofLoader?_eq_some_iff.1 hkind with ⟨rfl, rfl⟩ | ⟨rfl, rfl⟩ | ⟨rfl, rfl⟩
        · obtain ⟨target, rest, rfl, rfl⟩ := (mem_ofFirst_iff _).1 h
          rw [List.getElem?_cons_succ, ← List.head?_eq_getElem?]
          exact .loaderModel
        · obtain ⟨target, rest, rfl, rfl⟩ := (mem_ofFirst_iff _).1 h
          rw [List.getElem?_cons_succ, ← List.head?_eq_getElem?]
          exact .loaderLibrary
        · obtain ⟨name, hname, rfl⟩ := List.mem_map.1 h
          exact .loaderHelper (mem_helperNames_iff.1 hname)
  · rw [if_neg hown] at h
    cases h

theorem mem_loads_iff {rule : CallRule} {n : Node} {l : Load} :
    l ∈ rule.loads n ↔ rule.Loads n l := by
  constructor
  · intro h
    unfold loads at h
    split at h
    · exact loads_of_mem_loader h
    · obtain ⟨name, hname, rfl⟩ := List.mem_map.1 h
      exact .helper (mem_helperNames_iff.1 hname)
    · obtain ⟨target, rest, rfl, rfl⟩ := (mem_ofFirst_iff _).1 h
      exact .model
    · next object handle args =>
        cases hthis : object.isThis with
        | false =>
            rw [hthis] at h
            cases h
        | true =>
            rw [hthis] at h
            have h : l ∈ match firstString? args with
                | some target => [Load.bind handle ⟨.model, target⟩]
                | none => [] := by
              cases hfirst : firstString? args <;> rw [hfirst] at h <;> exact h
            obtain ⟨target, rest, rfl, rfl⟩ := (mem_ofFirst_iff _).1 h
            rw [Node.isThis_iff.1 hthis]
            exact .assignedModel
    · cases h
  · intro h
    cases h with
    | @loaderHelper property name args hname =>
        show _ ∈ if (Node.own property).isOwnProperty property then _ else _
        rw [if_pos (Node.isOwnProperty_iff.2 rfl)]
        exact List.mem_map_of_mem (mem_helperNames_iff.2 hname)
    | @loaderModel property target rest =>
        show _ ∈ if (Node.own property).isOwnProperty property then _ else _
        rw [if_pos (Node.isOwnProperty_iff.2 rfl), List.head?_eq_getElem?]
        exact List.mem_singleton_self _
    | @loaderLibrary property target rest =>
        show _ ∈ if (Node.own property).isOwnProperty property then _ else _
        rw [if_pos (Node.isOwnProperty_iff.2 rfl), List.head?_eq_getElem?]
        exact List.mem_singleton_self _
    | helper hname => exact List.mem_map_of_mem (mem_helperNames_iff.2 hname)
    | model => exact List.mem_singleton_self _
    | assignedModel => exact List.mem_singleton_self _

end CallRule

/-! ## Bindings -/

namespace Load

/-- The handle that a load binds, and what it binds it to. -/
def bound : Load → String × Binding
  | helper name => (name, ⟨.helper, name⟩)
  | bind handle b => (handle, b)

end Load

theorem CallRule.Loads.kind_ne {rule : CallRule} {n : Node} {l : Load} (h : rule.Loads n l) :
    l.bound.2.kind ≠ .unknown := by
  cases h <;> exact fun hkind => nomatch hkind

namespace ClassRules

variable (r : ClassRules)

/-- What a method body loads, at any depth. -/
def Loaded (body : List Node) (l : Load) : Prop :=
  ∃ n ∈ Node.preorderList body, ∃ rule ∈ r.loads, rule.Loads n l

theorem mem_bodyLoads_iff {body : List Node} {l : Load} :
    l ∈ r.bodyLoads body ↔ r.Loaded body l := by
  simp only [bodyLoads, List.mem_flatMap, CallRule.mem_loads_iff, Loaded]

theorem mem_helpersOf_iff {body : List Node} {name : String} :
    name ∈ helpersOf (r.bodyLoads body) ↔ r.Loaded body (.helper name) := by
  rw [← mem_bodyLoads_iff, helpersOf, List.mem_filterMap]
  constructor
  · rintro ⟨l, hl, hname⟩
    cases l with
    | helper other => rwa [← Option.some.inj hname]
    | bind handle b => cases hname
  · exact fun h => ⟨_, h, rfl⟩

/-- What the methods and constructors among some nodes load. -/
def Binds (seen : List Node) (handle : String) (b : Binding) : Prop :=
  ∃ name visibility params body summary, .method name visibility params body summary ∈ seen ∧
    ∃ l, r.Loaded body l ∧ l.bound = (handle, b)

/-- The entries that a method body adds to the bindings, helpers last. -/
def bodyEntries (body : List Node) : List (String × Binding) :=
  boundBy (r.bodyLoads body) ++
    (helpersOf (r.bodyLoads body)).map fun name => (name, ⟨.helper, name⟩)

theorem bind_eq (bindings : Bindings) (body : List Node) :
    r.bind bindings body = bindings.insertMany (r.bodyEntries body) :=
  (Dictionary.insertMany_append _ _ _).symm

theorem mem_bodyEntries_iff {body : List Node} {e : String × Binding} :
    e ∈ r.bodyEntries body ↔ ∃ l, r.Loaded body l ∧ l.bound = e := by
  rw [bodyEntries, List.mem_append, boundBy, List.mem_filterMap, List.mem_map]
  simp only [mem_helpersOf_iff, mem_bodyLoads_iff]
  constructor
  · rintro (⟨l, hl, he⟩ | ⟨name, hname, rfl⟩)
    · cases l with
      | helper name => cases he
      | bind handle b => exact ⟨_, hl, Option.some.inj he⟩
    · exact ⟨_, hname, rfl⟩
  · rintro ⟨l, hl, rfl⟩
    cases l with
    | helper name => exact .inr ⟨name, hl, rfl⟩
    | bind handle b => exact .inl ⟨_, hl, rfl⟩

variable {r}

/-- What is bound behind a body was loaded in it, or was bound before. -/
theorem of_get?_bind {bindings : Bindings} {body : List Node} {handle : String} {b : Binding}
    (h : (r.bind bindings body).get? handle = some b) :
    (∃ l, r.Loaded body l ∧ l.bound = (handle, b)) ∨ bindings.get? handle = some b := by
  rw [bind_eq, Dictionary.get?_eq_some_iff] at h
  rcases Dictionary.mem_of_mem_insertMany h with hmem | hmem
  · exact .inl ((mem_bodyEntries_iff r).1 hmem)
  · exact .inr ((Dictionary.get?_eq_some_iff _).2 hmem)

theorem mem_keys_bind_iff {bindings : Bindings} {body : List Node} {handle : String} :
    handle ∈ (r.bind bindings body).keys ↔
      (∃ b l, r.Loaded body l ∧ l.bound = (handle, b)) ∨ handle ∈ bindings.keys := by
  rw [bind_eq, Dictionary.mem_keys_insertMany]
  refine or_congr ?_ Iff.rfl
  constructor
  · intro h
    obtain ⟨⟨handle, b⟩, he, rfl⟩ := List.mem_map.1 h
    exact ⟨b, (mem_bodyEntries_iff r).1 he⟩
  · rintro ⟨b, hb⟩
    exact List.mem_map.2 ⟨(handle, b), (mem_bodyEntries_iff r).2 hb, rfl⟩

/-- A helper that a body loads is bound as a helper behind it, whatever else has its name. -/
theorem get?_bind_of_helper {bindings : Bindings} {body : List Node} {name : String}
    (h : r.Loaded body (.helper name)) :
    (r.bind bindings body).get? name = some ⟨.helper, name⟩ := by
  apply Dictionary.get?_insertMany_of_forall
  · intro e he hname
    obtain ⟨other, -, rfl⟩ := List.mem_map.1 he
    rw [← hname]
  · have hname : name ∈ helpersOf (r.bodyLoads body) := (mem_helpersOf_iff r).2 h
    exact .inl (List.mem_map.2 ⟨_, List.mem_map_of_mem hname, rfl⟩)

end ClassRules

end Resettle
