import Resettle.Proofs.Inventory.MethodFacts

/-!
# Handles that are loaded several times

A method body may load several things under one handle.  Models and libraries are bound in document
order, so the last of them stays; helpers are bound behind them all.  So a read of the handle stands
for what was loaded last just if that is a helper, or no helper of this name is loaded.
-/

namespace Resettle

open Php (Node)

theorem exists_last_of_exists {α : Type} {p : α → Prop} {xs : List α} (h : ∃ x ∈ xs, p x) :
    ∃ front x behind, xs = front ++ x :: behind ∧ p x ∧ ∀ y ∈ behind, ¬ p y := by
  induction xs with
  | nil =>
      obtain ⟨x, hx, -⟩ := h
      cases hx
  | cons x xs ih =>
      by_cases hlater : ∃ y ∈ xs, p y
      · obtain ⟨front, y, behind, rfl, hy⟩ := ih hlater
        exact ⟨x :: front, y, behind, rfl, hy⟩
      · have hnone : ∀ y ∈ xs, ¬ p y := fun y hy hp => hlater ⟨y, hy, hp⟩
        obtain ⟨y, hy, hp⟩ := h
        rcases List.mem_cons.1 hy with rfl | hmem
        · exact ⟨[], y, xs, rfl, hp, hnone⟩
        · exact absurd hp (hnone y hmem)

/-- A text is read backwards from its bar: handles without a bar are told by their keys. -/
theorem Usage.handle_of_key_of_handles {u v : Usage} (hu : '|' ∉ u.handle.toList)
    (hv : '|' ∉ v.handle.toList) (h : u.key = v.key) : u.handle = v.handle := by
  have hreverse : u.handle.toList.reverse ++ '|' :: (u.name.getD "").toList.reverse =
      v.handle.toList.reverse ++ '|' :: (v.name.getD "").toList.reverse := by
    simpa [key] using congrArg (fun s => s.toList.reverse) h
  have hfront := (Text.front_unique (by simpa using hu) (by simpa using hv) hreverse).1
  exact String.toList_inj.1 (List.reverse_inj.1 hfront)

/-! ## One node -/

namespace CallRule

/-- A node loads one thing under a handle, whatever rule it is looked at under. -/
theorem Loads.bound_unique {rule rule' : CallRule} {n : Node} {l l' : Load} (h : rule.Loads n l)
    (h' : rule'.Loads n l') (hhandle : l.bound.1 = l'.bound.1) : l.bound = l'.bound := by
  -- the node is kept apart, because its texts tell which of the shapes go together
  generalize hn : n = m at h'
  cases h <;> cases h' <;> simp_all [Load.bound]

theorem Loads.eq_helper {rule : CallRule} {n : Node} {l : Load} (h : rule.Loads n l)
    (hkind : l.bound.2.kind = .helper) : l = .helper l.bound.1 := by
  cases h <;> first | rfl | cases hkind

end CallRule

namespace ClassRules

variable (r : ClassRules)

/-- A node loads something under a handle. -/
def LoadsAs (n : Node) (handle : String) (b : Binding) : Prop :=
  ∃ rule ∈ r.loads, ∃ l, rule.Loads n l ∧ l.bound = (handle, b)

/-- What a method body loads under a handle last, in document order. -/
def LastLoad (body : List Node) (handle : String) (b : Binding) : Prop :=
  ∃ front n behind, Node.preorderList body = front ++ n :: behind ∧ r.LoadsAs n handle b ∧
    ∀ later ∈ behind, ¬ ∃ b', r.LoadsAs later handle b'

/-- A read of a handle stands for a binding: there is one dependency under the handle, with the kind
and the name of the binding. -/
def ReadsAs (us : List Usage) (handle : String) (b : Binding) : Prop :=
  ∀ u, u ∈ us ∧ u.handle = handle ↔ u = ⟨b.kind, handle, some b.name⟩

variable {r} {body : List Node} {handle : String} {b : Binding}

theorem LoadsAs.unique {n : Node} {b' : Binding} (h : r.LoadsAs n handle b)
    (h' : r.LoadsAs n handle b') : b = b' := by
  obtain ⟨rule, -, l, hloads, hbound⟩ := h
  obtain ⟨rule', -, l', hloads', hbound'⟩ := h'
  have hsame : l.bound = l'.bound := hloads.bound_unique hloads' (by rw [hbound, hbound'])
  exact (Prod.mk.inj (hbound.symm.trans (hsame.trans hbound'))).2

theorem loadsAs_iff {n : Node} :
    r.LoadsAs n handle b ↔
      (handle, b) ∈ (r.loads.flatMap fun rule => rule.loads n).map Load.bound := by
  simp only [LoadsAs, List.mem_map, List.mem_flatMap, CallRule.mem_loads_iff]
  constructor
  · rintro ⟨rule, hrule, l, hloads, hbound⟩
    exact ⟨l, ⟨rule, hrule, hloads⟩, hbound⟩
  · rintro ⟨l, ⟨rule, hrule, hloads⟩, hbound⟩
    exact ⟨rule, hrule, l, hloads, hbound⟩

theorem exists_loadsAs_iff :
    (∃ n ∈ Node.preorderList body, ∃ b, r.LoadsAs n handle b) ↔
      ∃ l, r.Loaded body l ∧ l.bound.1 = handle := by
  constructor
  · rintro ⟨n, hn, b, rule, hrule, l, hloads, hbound⟩
    exact ⟨l, ⟨n, hn, rule, hrule, hloads⟩, by rw [hbound]⟩
  · rintro ⟨l, ⟨n, hn, rule, hrule, hloads⟩, rfl⟩
    exact ⟨n, hn, l.bound.2, rule, hrule, l, hloads, rfl⟩

/-- Where something is loaded under a handle, something is loaded last. -/
theorem exists_lastLoad {l : Load} (h : r.Loaded body l) : ∃ b, r.LastLoad body l.bound.1 b := by
  obtain ⟨front, n, behind, hcut, ⟨b, hb⟩, hlater⟩ :=
    exists_last_of_exists (exists_loadsAs_iff.2 ⟨l, h, rfl⟩)
  exact ⟨b, front, n, behind, hcut, hb, hlater⟩

theorem LastLoad.eq_of_helper (h : r.LastLoad body handle b) (hkind : b.kind = .helper) :
    r.Loaded body (.helper handle) ∧ b = ⟨.helper, handle⟩ := by
  obtain ⟨front, n, behind, hcut, ⟨rule, hrule, l, hloads, hbound⟩, -⟩ := h
  have hhandle : l.bound.1 = handle := by rw [hbound]
  have hhelper : l = .helper handle := by
    rw [← hhandle]
    exact hloads.eq_helper (by rw [hbound]; exact hkind)
  subst hhelper
  have hn : n ∈ Node.preorderList body := hcut ▸ List.mem_append_right _ List.mem_cons_self
  exact ⟨⟨n, hn, rule, hrule, hloads⟩, ((Prod.mk.inj hbound).2).symm⟩

/-! ## Bindings behind a body -/

/-- The models and libraries that some nodes load, with their handles. -/
def boundIn (r : ClassRules) (nodes : List Node) : List (String × Binding) :=
  boundBy (nodes.flatMap fun n => r.loads.flatMap fun rule => rule.loads n)

theorem boundIn_append (nodes nodes' : List Node) :
    r.boundIn (nodes ++ nodes') = r.boundIn nodes ++ r.boundIn nodes' := by
  rw [boundIn, List.flatMap_append, boundBy, List.filterMap_append]
  rfl

theorem mem_boundIn_iff {nodes : List Node} :
    (handle, b) ∈ r.boundIn nodes ↔
      ∃ n ∈ nodes, ∃ rule ∈ r.loads, rule.Loads n (.bind handle b) := by
  rw [boundIn, boundBy, List.mem_filterMap]
  simp only [List.mem_flatMap, CallRule.mem_loads_iff]
  constructor
  · rintro ⟨l, ⟨n, hn, rule, hrule, hloads⟩, hl⟩
    cases l with
    | helper name => cases hl
    | bind handle' b' =>
        cases hl
        exact ⟨n, hn, rule, hrule, hloads⟩
  · rintro ⟨n, hn, rule, hrule, hloads⟩
    exact ⟨.bind handle b, ⟨n, hn, rule, hrule, hloads⟩, rfl⟩

theorem notMem_boundIn {nodes : List Node} (h : ∀ n ∈ nodes, ¬ ∃ b, r.LoadsAs n handle b) :
    handle ∉ (r.boundIn nodes).map Prod.fst := by
  intro hmem
  obtain ⟨⟨handle', b⟩, he, rfl⟩ := List.mem_map.1 hmem
  obtain ⟨n, hn, rule, hrule, hloads⟩ := mem_boundIn_iff.1 he
  exact h n hn ⟨b, rule, hrule, _, hloads, rfl⟩

theorem notMem_helpers (h : ¬ r.Loaded body (.helper handle)) :
    handle ∉ ((helpersOf (r.bodyLoads body)).map fun name =>
      (name, (⟨.helper, name⟩ : Binding))).map Prod.fst := by
  intro hmem
  obtain ⟨e, he, rfl⟩ := List.mem_map.1 hmem
  obtain ⟨name, hname, rfl⟩ := List.mem_map.1 he
  exact h ((mem_helpersOf_iff r).1 hname)

theorem LoadsAs.eq_of_mem_boundIn {n : Node} (h : r.LoadsAs n handle b) :
    ∀ e ∈ r.boundIn [n], e.1 = handle → e.2 = b := by
  rintro ⟨handle', b'⟩ he rfl
  obtain ⟨m, hm, rule, hrule, hloads⟩ := mem_boundIn_iff.1 he
  obtain rfl := List.mem_singleton.1 hm
  have hloadsAs : r.LoadsAs m handle' b' := ⟨rule, hrule, _, hloads, rfl⟩
  exact hloadsAs.unique h

theorem LoadsAs.mem_boundIn {n : Node} (h : r.LoadsAs n handle b)
    (hhelper : ∀ rule ∈ r.loads, ¬ rule.Loads n (.helper handle)) :
    handle ∈ (r.boundIn [n]).map Prod.fst := by
  obtain ⟨rule, hrule, l, hloads, hbound⟩ := h
  cases l with
  | helper name =>
      cases hbound
      exact absurd hloads (hhelper rule hrule)
  | bind handle' b' =>
      cases hbound
      have hentry := mem_boundIn_iff.2 ⟨n, List.mem_singleton_self n, rule, hrule, hloads⟩
      exact List.mem_map_of_mem (f := Prod.fst) hentry

/-- What is loaded last under a handle is bound behind the body, unless it is overridden by a
helper of this name. -/
theorem LastLoad.get?_bind (h : r.LastLoad body handle b)
    (hhelper : ¬ r.Loaded body (.helper handle)) (bindings : Bindings) :
    (r.bind bindings body).get? handle = some b := by
  obtain ⟨front, n, behind, hcut, hlast, hlater⟩ := h
  have hn : n ∈ Node.preorderList body := hcut ▸ List.mem_append_right _ List.mem_cons_self
  have hentries : r.bodyEntries body = r.boundIn front ++ r.boundIn [n] ++
      (r.boundIn behind ++
        (helpersOf (r.bodyLoads body)).map fun name => (name, ⟨.helper, name⟩)) := by
    have hnodes : Node.preorderList body = front ++ [n] ++ behind := by rw [hcut]; simp
    show r.boundIn (Node.preorderList body) ++ _ = _
    rw [hnodes, boundIn_append, boundIn_append, List.append_assoc]
  have hthere : handle ∈ (r.boundIn [n]).map Prod.fst :=
    hlast.mem_boundIn fun rule hrule hloads => hhelper ⟨n, hn, rule, hrule, hloads⟩
  rw [bind_eq, hentries]
  apply Dictionary.get?_insertMany_of_last _ _ hlast.eq_of_mem_boundIn hthere
  rw [List.map_append, List.mem_append, not_or]
  exact ⟨notMem_boundIn hlater, notMem_helpers hhelper⟩

/-! ## Reads -/

theorem ReadsAs.unique {us : List Usage} {b' : Binding} (h : ReadsAs us handle b)
    (h' : ReadsAs us handle b') : b = b' := by
  have hsame := (h' _).1 ((h _).2 rfl)
  cases b
  cases b'
  cases hsame
  rfl

theorem readUsage_of_get? {bindings : Bindings} (h : bindings.get? handle = some b) :
    readUsage bindings handle = ⟨b.kind, handle, some b.name⟩ := by
  rw [readUsage, h]

/-- Handles without a bar do not take each other's place, so each read is among the usages. -/
theorem readUsage_mem_usages {bindings : Bindings} (hread : r.Reads body handle)
    (hbar : ∀ other, r.Reads body other → '|' ∉ other.toList) :
    readUsage bindings handle ∈ r.usages bindings body := by
  have hkey : ((Dictionary.ofList ((helpersOf (r.bodyLoads body)).map helperUsage ++
      (r.bodyReads body).map (readUsage bindings) |>.map fun u => (u.key, u))).get?
        (readUsage bindings handle).key) = some (readUsage bindings handle) := by
    rw [List.map_append, Dictionary.ofList, Dictionary.insertMany_append]
    apply Dictionary.get?_insertMany_of_forall
    · intro e he hsame
      obtain ⟨u, hu, rfl⟩ := List.mem_map.1 he
      obtain ⟨other, hother, rfl⟩ := List.mem_map.1 hu
      have hhandle : other = handle := by
        have h := Usage.handle_of_key_of_handles
          (by rw [handle_readUsage]; exact hbar other (mem_bodyReads_iff.1 hother))
          (by rw [handle_readUsage]; exact hbar handle hread) hsame
        rwa [handle_readUsage, handle_readUsage] at h
      rw [hhandle]
    · have hmem := List.mem_map_of_mem (f := readUsage bindings) (mem_bodyReads_iff.2 hread)
      exact .inl (List.mem_map.2 ⟨_, List.mem_map_of_mem hmem, rfl⟩)
  rw [usages]
  exact List.mem_map.2 ⟨_, (Dictionary.get?_eq_some_iff _).1 hkey, rfl⟩

/-- A read stands for what is bound to its handle behind the body. -/
theorem readsAs_usages {bindings : Bindings} (hread : r.Reads body handle)
    (hbar : ∀ other, r.Reads body other → '|' ∉ other.toList)
    (h : (r.bind bindings body).get? handle = some b) :
    ReadsAs (r.usages (r.bind bindings body) body) handle b := by
  intro u
  constructor
  · rintro ⟨hu, rfl⟩
    rw [usages_eq] at hu
    obtain ⟨e, he, rfl⟩ := List.mem_map.1 hu
    obtain ⟨other, -, hother⟩ := List.mem_map.1 (Dictionary.mem_of_mem_ofList he).1
    have hhandle : other = e.2.handle := by rw [← hother, handle_readUsage]
    have hsame : readUsage (r.bind bindings body) e.2.handle = e.2 := by rw [← hhandle, hother]
    exact hsame.symm.trans (readUsage_of_get? h)
  · rintro rfl
    rw [← readUsage_of_get? h]
    exact ⟨readUsage_mem_usages hread hbar, handle_readUsage _ _⟩

/-- A read in a listed method stands for what its body loads last under the handle just if that is a
helper, or no helper of this name is loaded there; else it stands for the helper. -/
theorem readsAs_lastLoad_iff {trees front behind : List Node} {name summary handle : String}
    {visibility : Php.Visibility} {params : List String} {body : List Node} {l : Load}
    (hcut : Node.preorderList trees =
      front ++ .method name visibility params body summary :: behind)
    (hname : isConstructor name = false) (hread : r.Reads body handle) (hloaded : r.Loaded body l)
    (hhandle : l.bound.1 = handle) (hbar : ∀ other, r.Reads body other → '|' ∉ other.toList) :
    ∃ fact b, (r.collector.collect trees).methods[front.countP isListed]? = some fact ∧
      fact.name = name ∧ r.LastLoad body handle b ∧
      (ReadsAs fact.dependencies handle b ↔ b.kind = .helper ∨ ¬ r.Loaded body (.helper handle)) ∧
      (r.Loaded body (.helper handle) → ReadsAs fact.dependencies handle ⟨.helper, handle⟩) := by
  obtain ⟨b, hlast⟩ := exists_lastLoad hloaded
  rw [hhandle] at hlast
  let s := front.foldl r.step r.collector.start
  have hhelper (h : r.Loaded body (.helper handle)) :
      ReadsAs (r.usages (r.bind s.bindings body) body) handle ⟨.helper, handle⟩ :=
    readsAs_usages hread hbar (get?_bind_of_helper h)
  refine ⟨r.factOf s name visibility params body summary, b, ?_, rfl, hlast, ?_, hhelper⟩
  · exact getElem?_methods hcut (fact?_method r s hname visibility params body summary)
  · constructor
    · intro hreads
      by_cases h : r.Loaded body (.helper handle)
      · rw [hreads.unique (hhelper h)]
        exact .inl rfl
      · exact .inr h
    · rintro (hkind | hnone)
      · obtain ⟨hloaded, rfl⟩ := hlast.eq_of_helper hkind
        exact hhelper hloaded
      · exact readsAs_usages hread hbar (hlast.get?_bind hnone s.bindings)

def oneMethod (body : List Node) : Node :=
  .classDecl "Blog" none [.method "index" .publicAccess [] body ""]

/-- A model and then a library are loaded under one handle, which is read. -/
def rebinding : List Node :=
  [.methodCall (.own "load") "model" [.text "post_model", .text "posts"],
    .methodCall (.own "load") "library" [.text "archive", .text "posts"],
    .methodCall (.own "posts") "latest" []]

theorem readsAs_lastLoad_rebinding :
    ∃ fact, (loader.collector.collect [oneMethod rebinding]).methods[0]? = some fact ∧
      ReadsAs fact.dependencies "posts" ⟨.library, "archive"⟩ := by
  have hread : loader.Reads rebinding "posts" := mem_bodyReads_iff.1 (by decide +kernel)
  have hloaded : loader.Loaded rebinding (.bind "posts" ⟨.model, "post_model"⟩) :=
    (mem_bodyLoads_iff loader).1 (by decide +kernel)
  have hbar : ∀ other, loader.Reads rebinding other → '|' ∉ other.toList := by
    intro other hother
    rw [← mem_bodyReads_iff] at hother
    revert other
    decide +kernel
  have hnone : ¬ loader.Loaded rebinding (.helper "posts") := by
    rw [← mem_bodyLoads_iff]
    decide +kernel
  have hcut : Node.preorderList [oneMethod rebinding] =
      [oneMethod rebinding] ++ .method "index" .publicAccess [] rebinding "" :: _ := rfl
  obtain ⟨fact, b, hfact, -, hlast, hiff, -⟩ :=
    readsAs_lastLoad_iff hcut (by decide +kernel) hread hloaded rfl hbar
  have hbound : (loader.bind Dictionary.empty rebinding).get? "posts" =
      some ⟨.library, "archive"⟩ := by
    decide +kernel
  obtain rfl : b = ⟨.library, "archive"⟩ :=
    Option.some.inj ((hlast.get?_bind hnone Dictionary.empty).symm.trans hbound)
  exact ⟨fact, hfact, hiff.2 (.inr hnone)⟩

/-- A helper and then a model are loaded under one handle, which is read. -/
def overriding : List Node :=
  [.methodCall (.own "load") "helper" [.text "posts"],
    .methodCall (.own "load") "model" [.text "post_model", .text "posts"],
    .methodCall (.own "posts") "latest" []]

/-- The model is loaded last, but the read stands for the helper. -/
theorem not_readsAs_lastLoad_overriding :
    loader.Reads overriding "posts" ∧ loader.LastLoad overriding "posts" ⟨.model, "post_model"⟩ ∧
      ∃ fact, (loader.collector.collect [oneMethod overriding]).methods = [fact] ∧
        ¬ ReadsAs fact.dependencies "posts" ⟨.model, "post_model"⟩ := by
  refine ⟨mem_bodyReads_iff.1 (by decide +kernel), ?_, ?_⟩
  · refine ⟨(Node.preorderList overriding).take 4, _, (Node.preorderList overriding).drop 5, rfl,
      loadsAs_iff.2 (by decide +kernel), ?_⟩
    rintro later hlater ⟨b', hloads⟩
    have hnone : ∀ n ∈ (Node.preorderList overriding).drop 5,
        "posts" ∉ ((loader.loads.flatMap fun rule => rule.loads n).map Load.bound).map
          Prod.fst := by
      decide +kernel
    exact hnone later hlater (List.mem_map_of_mem (f := Prod.fst) (loadsAs_iff.1 hloads))
  · have hfacts : (loader.collector.collect [oneMethod overriding]).methods.map
        MethodFact.dependencies = [[⟨.helper, "posts", some "posts"⟩]] := by
      decide +kernel
    obtain ⟨fact, hmethods, hdependencies⟩ := List.map_eq_singleton_iff.1 hfacts
    refine ⟨fact, hmethods, fun hreads => ?_⟩
    have hmodel := ((hreads _).2 rfl).1
    rw [hdependencies] at hmodel
    exact absurd (List.mem_singleton.1 hmodel) (by decide)

end ClassRules

end Resettle
