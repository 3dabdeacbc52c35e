import Mathlib.Data.List.Induction
import Mathlib.Data.List.Nodup
import Resettle.Proofs.Inventory.Loads
import Resettle.Proofs.Text.Pieces

/-!
# What methods depend on

The dependencies of a method are told by its body and by what was loaded up to the method.  A
property of the object that the body reads is one dependency, and so is a helper that it loads;
each stands for what was loaded under its handle.  Usages are told apart by a text that a bar
divides, so none gets lost as long as there is no bar in what is loaded.
-/

namespace Resettle

open Php (Node)

namespace Usage

theorem handle_of_key {u v : Usage} (hu : '|' ∉ (u.name.getD "").toList)
    (hv : '|' ∉ (v.name.getD "").toList) (h : u.key = v.key) : u.handle = v.handle := by
  have hlist : (u.name.getD "").toList ++ '|' :: u.handle.toList =
      (v.name.getD "").toList ++ '|' :: v.handle.toList := by
    simpa [key] using congrArg String.toList h
  exact String.toList_inj.1 (Text.front_unique hu hv hlist).2

end Usage

namespace ClassRules

variable (r : ClassRules)

/-- A method body reads a property of its object, at any depth, and the property is not ignored. -/
def Reads (body : List Node) (handle : String) : Prop :=
  Node.own handle ∈ Node.preorderList body ∧ handle ∉ r.ignored

/-- What a method depends on, given the nodes up to it: the properties that its body reads and the
helpers that it loads, each under one handle and with a key of its own. -/
structure Resolves (seen body : List Node) (us : List Usage) : Prop where
  read : ∀ handle, r.Reads body handle → ∃! u, u ∈ us ∧ u.handle = handle
  unknown : ∀ u ∈ us, u.kind = .unknown ↔ ∀ b, ¬ r.Binds seen u.handle b
  nameless : ∀ u ∈ us, u.kind = .unknown → u.name = none
  known : ∀ u ∈ us, u.kind ≠ .unknown →
    ∃ b, r.Binds seen u.handle b ∧ u.kind = b.kind ∧ u.name = some b.name
  helper : ∀ name, r.Loaded body (.helper name) → ⟨.helper, name, some name⟩ ∈ us
  only : ∀ u ∈ us, r.Reads body u.handle ∨
    ∃ name, r.Loaded body (.helper name) ∧ u = ⟨.helper, name, some name⟩
  nodup_handles : (us.map Usage.handle).Nodup
  nodup_keys : (us.map Usage.key).Nodup

/-! ## Bindings behind some nodes -/

variable {r}

theorem binds_append_iff {seen more : List Node} {handle : String} {b : Binding} :
    r.Binds (seen ++ more) handle b ↔ r.Binds seen handle b ∨ r.Binds more handle b := by
  simp only [Binds, List.mem_append, or_and_right, exists_or]

theorem binds_method_iff {name : String} {visibility : Php.Visibility} {params : List String}
    {body : List Node} {summary handle : String} {b : Binding} :
    r.Binds [.method name visibility params body summary] handle b ↔
      ∃ l, r.Loaded body l ∧ l.bound = (handle, b) := by
  constructor
  · rintro ⟨_, _, _, _, _, hmem, hloaded⟩
    cases List.mem_singleton.1 hmem
    exact hloaded
  · intro hloaded
    exact ⟨_, _, _, _, _, List.mem_singleton_self _, hloaded⟩

theorem kind_ne_of_binds {seen : List Node} {handle : String} {b : Binding}
    (h : r.Binds seen handle b) : b.kind ≠ .unknown := by
  obtain ⟨-, -, -, body, -, -, l, ⟨n, -, rule, -, hloads⟩, hbound⟩ := h
  have hkind := hloads.kind_ne
  rwa [hbound] at hkind

variable (r)

/-- The bindings that the methods and constructors among some nodes leave behind. -/
structure Knows (bindings : Bindings) (seen : List Node) : Prop where
  bound : ∀ {handle b}, bindings.get? handle = some b → r.Binds seen handle b
  unbound : ∀ {handle}, bindings.get? handle = none → ∀ b, ¬ r.Binds seen handle b

variable {r} {bindings : Bindings} {seen body : List Node}

theorem knows_empty : r.Knows Dictionary.empty [] where
  bound := fun h => nomatch h
  unbound := by
    rintro _ - b ⟨_, _, _, _, _, hmem, -⟩
    cases hmem

theorem Knows.method (h : r.Knows bindings seen) (name : String) (visibility : Php.Visibility)
    (params : List String) (body : List Node) (summary : String) :
    r.Knows (r.bind bindings body) (seen ++ [.method name visibility params body summary]) where
  bound := by
    intro handle b hbound
    rw [binds_append_iff, binds_method_iff]
    exact (of_get?_bind hbound).elim .inr fun hbefore => .inl (h.bound hbefore)
  unbound := by
    intro handle hnone b hbinds
    have hkeys : handle ∉ (r.bind bindings body).keys := by
      rw [Dictionary.mem_keys_iff, hnone]
      exact Bool.false_ne_true
    rw [mem_keys_bind_iff, not_or] at hkeys
    rw [binds_append_iff, binds_method_iff] at hbinds
    rcases hbinds with hbefore | hloaded
    · refine h.unbound (Option.not_isSome_iff_eq_none.1 ?_) b hbefore
      exact fun hsome => hkeys.2 ((Dictionary.mem_keys_iff _ _).2 hsome)
    · exact hkeys.1 ⟨b, hloaded⟩

/-! ## Usages -/

theorem mem_bodyReads_iff {handle : String} : handle ∈ r.bodyReads body ↔ r.Reads body handle := by
  simp [bodyReads, Reads, ownRead?_eq_some_iff]

theorem handle_readUsage (bindings : Bindings) (handle : String) :
    (readUsage bindings handle).handle = handle := by
  unfold readUsage
  split <;> rfl

/-- A read resolves to something that was loaded under its handle, unless nothing was. -/
theorem Knows.usage_cases (h : r.Knows bindings seen) {u : Usage}
    (hu : readUsage bindings u.handle = u) :
    (∃ b, r.Binds seen u.handle b ∧ u = ⟨b.kind, u.handle, some b.name⟩) ∨
      (∀ b, ¬ r.Binds seen u.handle b) ∧ u = ⟨.unknown, u.handle, none⟩ := by
  rw [readUsage] at hu
  cases hget : bindings.get? u.handle with
  | some b =>
      rw [hget] at hu
      exact .inl ⟨b, h.bound hget, hu.symm⟩
  | none =>
      rw [hget] at hu
      exact .inr ⟨h.unbound hget, hu.symm⟩

variable (r) in
/-- The handles under which a method body uses something, helpers first. -/
def usedHandles (body : List Node) : List String :=
  helpersOf (r.bodyLoads body) ++ r.bodyReads body

theorem mem_usedHandles_iff {handle : String} :
    handle ∈ r.usedHandles body ↔ r.Loaded body (.helper handle) ∨ r.Reads body handle := by
  rw [usedHandles, List.mem_append, mem_helpersOf_iff, mem_bodyReads_iff]

theorem readUsage_of_helper {name : String} (h : r.Loaded body (.helper name)) :
    readUsage (r.bind bindings body) name = helperUsage name := by
  rw [readUsage, get?_bind_of_helper h]
  rfl

/-- A helper that is loaded is used as a read of its name would be. -/
theorem usages_eq (bindings : Bindings) (body : List Node) :
    r.usages (r.bind bindings body) body =
      (Dictionary.ofList (((r.usedHandles body).map (readUsage (r.bind bindings body))).map
        fun u => (u.key, u))).values := by
  have hhelpers : (helpersOf (r.bodyLoads body)).map helperUsage =
      (helpersOf (r.bodyLoads body)).map (readUsage (r.bind bindings body)) :=
    List.map_congr_left fun name hname => (readUsage_of_helper ((mem_helpersOf_iff r).1 hname)).symm
  rw [usages, hhelpers, ← List.map_append]
  rfl

theorem bar_notMem_readUsage (h : ∀ handle b, bindings.get? handle = some b → '|' ∉ b.name.toList)
    (handle : String) : '|' ∉ ((readUsage bindings handle).name.getD "").toList := by
  unfold readUsage
  split
  · next b hb => exact h handle b hb
  · exact List.not_mem_nil

theorem mem_usages_iff
    (h : ∀ handle b, (r.bind bindings body).get? handle = some b → '|' ∉ b.name.toList) {u : Usage} :
    u ∈ r.usages (r.bind bindings body) body ↔
      u.handle ∈ r.usedHandles body ∧ readUsage (r.bind bindings body) u.handle = u := by
  rw [usages_eq, Dictionary.mem_values_ofList_iff, List.mem_map]
  · constructor
    · rintro ⟨handle, hused, rfl⟩
      rw [handle_readUsage]
      exact ⟨hused, rfl⟩
    · exact fun hu => ⟨u.handle, hu⟩
  · intro v hv w hw hkey
    obtain ⟨x, -, rfl⟩ := List.mem_map.1 hv
    obtain ⟨y, -, rfl⟩ := List.mem_map.1 hw
    have hhandle := Usage.handle_of_key (bar_notMem_readUsage h x) (bar_notMem_readUsage h y) hkey
    rw [handle_readUsage, handle_readUsage] at hhandle
    rw [hhandle]

theorem nodup_keys_usages (r : ClassRules) (bindings : Bindings) (body : List Node) :
    ((r.usages bindings body).map Usage.key).Nodup := by
  rw [usages, Dictionary.map_values_ofList]
  exact Dictionary.nodup _

theorem resolves_usages (h : r.Knows (r.bind bindings body) seen)
    (hbar : ∀ handle b, r.Binds seen handle b → '|' ∉ b.name.toList) :
    r.Resolves seen body (r.usages (r.bind bindings body) body) := by
  have hmem (u : Usage) : u ∈ r.usages (r.bind bindings body) body ↔
      u.handle ∈ r.usedHandles body ∧ readUsage (r.bind bindings body) u.handle = u :=
    mem_usages_iff fun handle b hb => hbar handle b (h.bound hb)
  have hkeys := nodup_keys_usages r (r.bind bindings body) body
  refine ⟨?read, ?unknown, ?nameless, ?known, ?helper, ?only, ?handles, hkeys⟩
  case read =>
    intro handle hread
    have hused : handle ∈ r.usedHandles body := mem_usedHandles_iff.2 (.inr hread)
    refine ⟨readUsage (r.bind bindings body) handle, ⟨?_, handle_readUsage _ _⟩, ?_⟩
    · rw [hmem, handle_readUsage]
      exact ⟨hused, rfl⟩
    · rintro u ⟨hu, rfl⟩
      exact ((hmem u).1 hu).2.symm
  case unknown =>
    intro u hu
    rcases h.usage_cases ((hmem u).1 hu).2 with ⟨b, hb, heq⟩ | ⟨hnone, heq⟩
    · rw [heq]
      exact iff_of_false (kind_ne_of_binds hb) fun hnone => hnone b hb
    · rw [heq]
      exact iff_of_true rfl hnone
  case nameless =>
    intro u hu hkind
    rcases h.usage_cases ((hmem u).1 hu).2 with ⟨b, hb, heq⟩ | ⟨-, heq⟩
    · rw [heq] at hkind
      exact absurd hkind (kind_ne_of_binds hb)
    · rw [heq]
  case known =>
    intro u hu hkind
    rcases h.usage_cases ((hmem u).1 hu).2 with ⟨b, hb, heq⟩ | ⟨-, heq⟩
    · rw [heq]
      exact ⟨b, hb, rfl, rfl⟩
    · rw [heq] at hkind
      exact absurd rfl hkind
  case helper =>
    intro name hloaded
    exact (hmem _).2 ⟨mem_usedHandles_iff.2 (.inl hloaded), readUsage_of_helper hloaded⟩
  case only =>
    intro u hu
    obtain ⟨hused, hu⟩ := (hmem u).1 hu
    rcases mem_usedHandles_iff.1 hused with hloaded | hread
    · exact .inr ⟨u.handle, hloaded, hu.symm.trans (readUsage_of_helper hloaded)⟩
    · exact .inl hread
  case handles =>
    apply List.Nodup.map_on ?_ (List.Nodup.of_map _ hkeys)
    intro u hu v hv hsame
    rw [← ((hmem u).1 hu).2, hsame, ((hmem v).1 hv).2]

/-! ## From node to node -/

/-- There is a fact about a method that is no constructor, and about no other node. -/
def isListed : Node → Bool
  | .method name _ _ _ _ => !isConstructor name
  | _ => false

variable (r) in
/-- The fact with a number is the one about the method with this number, and it tells what the
method depends on. -/
def Explains (nodes : List Node) (number : Nat) (fact : MethodFact) : Prop :=
  ∃ front name visibility params body summary behind,
    nodes = front ++ .method name visibility params body summary :: behind ∧
      isConstructor name = false ∧ front.countP isListed = number ∧ fact.name = name ∧
        r.Resolves (front ++ [.method name visibility params body summary]) body fact.dependencies

theorem Explains.mono {nodes : List Node} {number : Nat} {fact : MethodFact}
    (h : r.Explains nodes number fact) (more : List Node) :
    r.Explains (nodes ++ more) number fact := by
  obtain ⟨front, name, visibility, params, body, summary, behind, rfl, hrest⟩ := h
  refine ⟨front, name, visibility, params, body, summary, behind ++ more, ?_, hrest⟩
  simp

variable (r) in
/-- The facts about the methods among some nodes. -/
structure Lists (methods : List MethodFact) (seen : List Node) : Prop where
  length : methods.length = seen.countP isListed
  explains : ∀ number fact, methods[number]? = some fact → r.Explains seen number fact

theorem Lists.skip {methods : List MethodFact} (h : r.Lists methods seen) {n : Node}
    (hn : isListed n = false) : r.Lists methods (seen ++ [n]) where
  length := by
    rw [h.length, List.countP_append, List.countP_singleton, hn]
    rfl
  explains := fun number fact hfact => (h.explains number fact hfact).mono [n]

theorem Lists.add {methods : List MethodFact} (h : r.Lists methods seen) {name : String}
    {visibility : Php.Visibility} {params : List String} {summary : String} {fact : MethodFact}
    (hname : isConstructor name = false) (hfact : fact.name = name)
    (hresolves : r.Resolves (seen ++ [.method name visibility params body summary]) body
      fact.dependencies) :
    r.Lists (methods ++ [fact]) (seen ++ [.method name visibility params body summary]) where
  length := by
    have hlisted : isListed (.method name visibility params body summary) = true := by
      rw [isListed, hname]
      rfl
    rw [List.length_append, h.length, List.countP_append, List.countP_singleton, if_pos hlisted]
    rfl
  explains := by
    intro number other hother
    by_cases hlt : number < methods.length
    · rw [List.getElem?_append_left hlt] at hother
      exact (h.explains number other hother).mono _
    · rw [List.getElem?_append_right (Nat.le_of_not_lt hlt), List.getElem?_singleton] at hother
      obtain ⟨hlast, hsame⟩ := Option.ite_none_right_eq_some.1 hother
      obtain rfl := Option.some.inj hsame
      have hnumber : seen.countP isListed = number := by
        rw [← h.length]
        omega
      exact ⟨seen, name, visibility, params, body, summary, [], rfl, hname, hnumber, hfact,
        hresolves⟩

variable (r) in
/-- What is remembered behind some nodes. -/
structure Remembers (s : State) (seen : List Node) : Prop where
  knows : r.Knows s.bindings seen
  lists : r.Lists s.facts.methods seen

variable {s : State}

theorem remembers_start : r.Remembers r.collector.start [] where
  knows := knows_empty
  lists := ⟨rfl, fun _ _ hfact => nomatch hfact⟩

/-- A node that is no method leaves bindings and methods as they are. -/
theorem Remembers.skip (h : r.Remembers s seen) {t : State} (hbindings : t.bindings = s.bindings)
    (hmethods : t.facts.methods = s.facts.methods) {n : Node}
    (hn : ∀ name visibility params body summary,
      n ≠ .method name visibility params body summary) : r.Remembers t (seen ++ [n]) where
  knows := by
    have hnone (handle : String) (b : Binding) : ¬ r.Binds [n] handle b := by
      rintro ⟨name, visibility, params, body, summary, hmem, -⟩
      exact hn name visibility params body summary (List.mem_singleton.1 hmem).symm
    rw [hbindings]
    exact ⟨fun hbound => binds_append_iff.2 (.inl (h.knows.bound hbound)),
      fun hget b hbinds => (binds_append_iff.1 hbinds).elim (h.knows.unbound hget b) (hnone _ b)⟩
  lists := by
    rw [hmethods]
    apply h.lists.skip
    cases n with
    | method name visibility params body summary => exact absurd rfl (hn _ _ _ _ _)
    | _ => rfl

theorem Remembers.method (h : r.Remembers s seen) (name : String) (visibility : Php.Visibility)
    (params : List String) (body : List Node) (summary : String)
    (hbar : ∀ handle b, r.Binds (seen ++ [.method name visibility params body summary]) handle b →
      '|' ∉ b.name.toList) :
    r.Remembers (r.step s (.method name visibility params body summary))
      (seen ++ [.method name visibility params body summary]) := by
  have hknows := h.knows.method name visibility params body summary
  refine ⟨?_, ?_⟩
  · rw [bindings_step_method]
    exact hknows
  · cases hname : isConstructor name with
    | true =>
        rw [step_constructor r s visibility params body summary hname]
        exact h.lists.skip (by rw [isListed, hname]; rfl)
    | false =>
        rw [step_method r s visibility params body summary hname]
        exact h.lists.add hname rfl (resolves_usages hknows hbar)

theorem Remembers.step (h : r.Remembers s seen) (n : Node)
    (hbar : ∀ handle b, r.Binds (seen ++ [n]) handle b → '|' ∉ b.name.toList) :
    r.Remembers (r.step s n) (seen ++ [n]) := by
  cases n with
  | method name visibility params body summary =>
      exact h.method name visibility params body summary hbar
  | _ =>
      apply h.skip
      · rfl
      · rfl
      · intro _ _ _ _ _ heq
        cases heq

theorem remembers_foldl {nodes : List Node}
    (hbar : ∀ handle b, r.Binds nodes handle b → '|' ∉ b.name.toList) :
    r.Remembers (nodes.foldl r.step r.collector.start) nodes := by
  -- from the end, because a method is resolved by the nodes in front of it
  induction nodes using List.reverseRecOn with
  | nil => exact remembers_start
  | append_singleton seen n ih =>
      rw [List.foldl_append]
      apply (ih _).step n hbar
      exact fun handle b hbinds => hbar handle b (binds_append_iff.2 (.inl hbinds))

/-- There is a fact about each method that is no constructor, in order, and its dependencies are
what the method depends on as long as no bar is in the name of anything loaded. -/
theorem lists_collect (r : ClassRules) (trees : List Node)
    (hbar : ∀ handle b, r.Binds (Node.preorderList trees) handle b → '|' ∉ b.name.toList) :
    r.Lists (r.collector.collect trees).methods (Node.preorderList trees) :=
  (remembers_foldl hbar).lists

/-- A class whose constructor loads a model under a handle, and whose method loads a helper and
reads the model and a property that nothing was loaded for. -/
def postsClass : Node :=
  .classDecl "Posts" (some "CI_Controller")
    [.method "__construct" .publicAccess []
        [.methodCall (.own "load") "model" [.text "post_model", .text "posts"]] "",
      .method "index" .publicAccess []
        [.methodCall (.own "load") "helper" [.text "url"],
          .methodCall (.own "posts") "all" [], .methodCall (.own "logger") "debug" []] ""]

theorem lists_collect_posts :
    loader.Lists (loader.collector.collect [postsClass]).methods (Node.preorderList [postsClass]) ∧
      (loader.collector.collect [postsClass]).methods.map MethodFact.dependencies =
        [[⟨.helper, "url", some "url"⟩, ⟨.model, "posts", some "post_model"⟩,
          ⟨.unknown, "logger", none⟩]] := by
  refine ⟨lists_collect loader [postsClass] ?_, by decide +kernel⟩
  rintro handle b ⟨name, visibility, params, body, summary, hmethod, l, hloaded, hbound⟩
  rw [← mem_bodyLoads_iff] at hloaded
  obtain rfl : l.bound.2 = b := congrArg Prod.snd hbound
  simp only [postsClass, Node.preorderList, Node.preorder, List.cons_append, List.nil_append,
    List.mem_cons, Node.method.injEq, List.not_mem_nil, reduceCtorEq, false_or, or_false] at hmethod
  rcases hmethod with ⟨-, -, -, rfl, -⟩ | ⟨-, -, -, rfl, -⟩
  · clear hbound
    revert l
    decide +kernel
  · clear hbound
    revert l
    decide +kernel

end ClassRules

end Resettle
