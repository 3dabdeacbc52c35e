import Resettle.Proofs.Inventory.Accounting
import Resettle.Proofs.Inventory.MethodFacts

/-!
# Which class methods are listed for

The facts about the classes of a file are named after the class that the file declares last, and
they list the methods of the whole file, each with the class that is declared last in front of it.
So the methods are all of the class that the facts are named after just if this class is already
the one declared last wherever a listed method stands.
-/

namespace Resettle

open Php (Node)

namespace ClassRules

/-! ## The class declared last -/

def declaredClass? : Node → Option String
  | .classDecl name _ _ => some name
  | _ => none

def lastClass? (nodes : List Node) : Option String :=
  (nodes.filterMap declaredClass?).getLast?

theorem lastClass?_concat (nodes : List Node) (n : Node) :
    lastClass? (nodes ++ [n]) = (declaredClass? n).or (lastClass? nodes) := by
  rw [lastClass?, List.filterMap_append, List.getLast?_append]
  cases hn : declaredClass? n with
  | none => simp [hn, lastClass?]
  | some name => simp [hn]

variable (r : ClassRules)

theorem name_step (s : State) (n : Node) :
    (r.step s n).facts.name = (declaredClass? n).or s.facts.name := by
  cases n with
  | method name visibility params body summary =>
      exact name_step_method r s visibility params body summary name
  | _ => rfl

theorem name_foldl (nodes : List Node) :
    (nodes.foldl r.step r.collector.start).facts.name = lastClass? nodes := by
  induction nodes using List.reverseRecOn with
  | nil => rfl
  | append_singleton nodes n ih =>
      rw [List.foldl_append, List.foldl_cons, List.foldl_nil, name_step, ih, lastClass?_concat]

/-- A fact is about a method, with the class that its state knows. -/
theorem exists_body_of_fact? {s : State} {n : Node} {fact : MethodFact}
    (h : r.fact? s n = some fact) :
    (∃ body, n = .method fact.name fact.visibility fact.params body fact.summary) ∧
      fact.className = s.facts.name := by
  unfold fact? at h
  split at h
  · next body _ =>
      obtain ⟨-, hfact⟩ := Option.ite_none_left_eq_some.1 h
      obtain rfl := Option.some.inj hfact
      exact ⟨⟨body, rfl⟩, rfl⟩
  · cases h

/-! ## The methods of the class declared last -/

/-- All methods are listed with the class that the facts are named after. -/
def ListsOwn (facts : ClassFacts) : Prop :=
  ∀ name, facts.name = some name → ∀ m ∈ facts.methods, m.className = some name

/-- The facts about some nodes are named after the class declared last, and list each method with
the class that is declared last in front of it. -/
structure NamedByLast (nodes : List Node) (facts : ClassFacts) : Prop where
  name : facts.name = lastClass? nodes
  length : facts.methods.length = nodes.countP isListed
  className : ∀ front n behind, nodes = front ++ n :: behind → isListed n = true →
    ∃ fact, facts.methods[front.countP isListed]? = some fact ∧
      (∃ body, n = .method fact.name fact.visibility fact.params body fact.summary) ∧
        fact.className = lastClass? front
  own_iff : ListsOwn facts ↔ ∀ last, lastClass? nodes = some last →
    ∀ front n behind, nodes = front ++ n :: behind → isListed n = true →
      lastClass? front = some last

variable {r} {trees : List Node}

theorem className_methods {front behind : List Node} {n : Node}
    (hcut : Node.preorderList trees = front ++ n :: behind) (hn : isListed n = true) :
    ∃ fact, (r.collector.collect trees).methods[front.countP isListed]? = some fact ∧
      (∃ body, n = .method fact.name fact.visibility fact.params body fact.summary) ∧
        fact.className = lastClass? front := by
  rw [← isSome_fact? r (front.foldl r.step r.collector.start)] at hn
  obtain ⟨fact, hfact⟩ := Option.isSome_iff_exists.1 hn
  obtain ⟨hbody, hclass⟩ := r.exists_body_of_fact? hfact
  exact ⟨fact, getElem?_methods hcut hfact, hbody, hclass.trans (r.name_foldl front)⟩

theorem exists_cut_className {fact : MethodFact}
    (h : fact ∈ (r.collector.collect trees).methods) :
    ∃ front n behind, Node.preorderList trees = front ++ n :: behind ∧ isListed n = true ∧
      fact.className = lastClass? front := by
  obtain ⟨front, n, behind, hcut, hfact⟩ := exists_cut_of_mem h
  refine ⟨front, n, behind, hcut, ?_, ?_⟩
  · rw [← isSome_fact? r, hfact]
    rfl
  · exact (r.exists_body_of_fact? hfact).2.trans (r.name_foldl front)

theorem listsOwn_iff :
    ListsOwn (r.collector.collect trees) ↔
      ∀ last, lastClass? (Node.preorderList trees) = some last →
        ∀ front n behind, Node.preorderList trees = front ++ n :: behind → isListed n = true →
          lastClass? front = some last := by
  have hname : (r.collector.collect trees).name = lastClass? (Node.preorderList trees) :=
    r.name_foldl _
  unfold ListsOwn
  rw [hname]
  constructor
  · intro hown last hlast front n behind hcut hn
    obtain ⟨fact, hfact, -, hclass⟩ := className_methods (r := r) hcut hn
    rw [← hclass]
    exact hown last hlast fact (List.mem_of_getElem? hfact)
  · intro hfronts last hlast fact hfact
    obtain ⟨front, n, behind, hcut, hn, hclass⟩ := exists_cut_className hfact
    rw [hclass]
    exact hfronts last hlast front n behind hcut hn

theorem namedByLast_collect (r : ClassRules) (trees : List Node) :
    NamedByLast (Node.preorderList trees) (r.collector.collect trees) where
  name := r.name_foldl _
  length := r.length_methods trees
  className := fun _ _ _ hcut hn => className_methods hcut hn
  own_iff := listsOwn_iff

/-- A file that declares a controller and, behind it, another class. -/
def twoClasses : String :=
  "<?php class Orders { function index() {} } class Cart { function count() {} }"

/-- The facts about a file are named after its second class, and list a method of the first. -/
theorem not_listsOwn_twoClasses :
    ∃ trees, Php.parse? twoClasses = some trees ∧ ¬ ListsOwn (loader.collector.collect trees) := by
  have hfacts : (Php.parse? twoClasses).map (fun trees =>
      ((loader.collector.collect trees).name,
        (loader.collector.collect trees).methods.map MethodFact.className)) =
      some (some "Cart", [some "Orders", some "Cart"]) := by
    decide +kernel
  obtain ⟨trees, htrees, hboth⟩ := Option.map_eq_some_iff.1 hfacts
  obtain ⟨hname, hclasses⟩ := Prod.mk.inj hboth
  refine ⟨trees, htrees, fun hown => ?_⟩
  have hmem : some "Orders" ∈ (loader.collector.collect trees).methods.map MethodFact.className :=
    hclasses ▸ List.mem_cons_self
  obtain ⟨m, hm, horders⟩ := List.mem_map.1 hmem
  have hcart : some "Orders" = some "Cart" := horders ▸ hown "Cart" hname m hm
  exact absurd hcart (by decide)

end ClassRules

namespace Inventory

open ClassRules (NamedByLast)

/-- An entry under a name has the methods of the facts about its file, which give the name or leave
it to the stem of the file. -/
def Stores (rules : ClassRules) (d : Disk) (name : String) (e : ClassEntry) : Prop :=
  ∃ trees, Php.ofFile d e.file = .ok trees ∧
    name = (rules.collector.collect trees).name.getD (e.file.fileStem?.getD "") ∧
      e.methods = (rules.collector.collect trees).methods

theorem stores_of_isFirst {rules : ClassRules} {d : Disk} {files : List Path} {name : String}
    {e : ClassEntry} (h : IsFirst rules d files name e) : Stores rules d name e := by
  obtain ⟨-, f, -, -, hdeclared, -⟩ := h
  unfold declared? Collector.ofFile at hdeclared
  cases htrees : Php.ofFile d f with
  | error _ =>
      rw [htrees] at hdeclared
      cases hdeclared
  | ok trees =>
      rw [htrees] at hdeclared
      obtain ⟨rfl, rfl⟩ := Prod.mk.inj (Option.some.inj hdeclared)
      exact ⟨trees, htrees, rfl, rfl⟩

/-- The inventory of a project of a known generation, with the classes of its batches. -/
theorem exists_ofProject {g : Generation} (hknown : g.isKnown = true) (m : Mode) (p : Project)
    (d : Disk) :
    ∃ rules r, g.controllerRules = .ok rules ∧ g.modelRules = .ok rules.withTables ∧
      ofProject m g p d = .ok r ∧
      r.controllers =
        classes (Batch.ofFiles m rules.collector d (Listing.php d (p.areaDir g .controllers))) ∧
      r.models =
        classes (Batch.ofFiles m rules.withTables.collector d
          (Listing.php d (p.areaDir g .models))) := by
  obtain ⟨rules, hcontrollers, hmodels, hroutes⟩ := exists_rules hknown
  cases hr : ofProject m g p d with
  | error e =>
      unfold ofProject at hr
      rw [hcontrollers, hmodels, hroutes] at hr
      cases hr
  | ok r =>
      unfold ofProject at hr
      rw [hcontrollers, hmodels, hroutes] at hr
      obtain rfl := Except.ok.inj hr
      exact ⟨rules, _, hcontrollers, hmodels, rfl, rfl, rfl⟩

/-- In a project of a known generation the entry of a class lists the methods of the whole file that
declares this class last, each with the class declared last in front of it; they are all of the
class that the file declares last just if this class is already the one declared last wherever a
listed method stands. -/
theorem namedByLast_ofProject {d : Disk} {g : Generation} (hnamed : d.Named)
    (hknown : g.isKnown = true) (m : Mode) (p : Project) :
    ∃ rules r, g.controllerRules = .ok rules ∧ g.modelRules = .ok rules.withTables ∧
      ofProject m g p d = .ok r ∧
      (∀ name e, r.controllers.get? name = some e → Stores rules d name e) ∧
      (∀ name e, r.models.get? name = some e → Stores rules.withTables d name e) ∧
      ∀ trees, NamedByLast (Node.preorderList trees) (rules.collector.collect trees) ∧
        NamedByLast (Node.preorderList trees) (rules.withTables.collector.collect trees) := by
  obtain ⟨rules, r, hrules, hmodelRules, hr, hcontrollers, hmodels⟩ := exists_ofProject hknown m p d
  have hfiles := nodup_areas hnamed p g
  have hfirst := hfiles.sublist ((List.sublist_append_left _ _).map _)
  have hsecond := hfiles.sublist ((List.sublist_append_right _ _).map _)
  refine ⟨rules, r, hrules, hmodelRules, hr, ?_, ?_, fun trees => ⟨?_, ?_⟩⟩
  · intro name e he
    rw [hcontrollers, get?_classes_iff m rules hfirst] at he
    exact stores_of_isFirst he
  · intro name e he
    rw [hmodels, get?_classes_iff m rules.withTables hsecond] at he
    exact stores_of_isFirst he
  · exact ClassRules.namedByLast_collect rules trees
  · exact ClassRules.namedByLast_collect rules.withTables trees

/-- A disk with a controller that shares its file with another class. -/
def shared : Disk :=
  .ofEntries
    [([], "src", .directory), (["src"], "application", .directory),
      (["src", "application"], "controllers", .directory),
      (["src", "application", "controllers"], "Orders.php",
        .file (.text ClassRules.twoClasses) false)]

theorem php_shared :
    Listing.php shared (crowdedProject.areaDir .ci3 .controllers) =
      [⟨"src/application/controllers/Orders.php"⟩] := by
  have hcontrollers : shared.names ⟨"src/application/controllers"⟩ = ["Orders.php"] :=
    @Disk.names_of_pairwise _ _ ["src", "application", "controllers"] _ (by decide +kernel)
      (by decide +kernel) (by decide +kernel)
  rw [Listing.php_of_names (by decide +kernel) (by decide +kernel) hcontrollers]
  decide +kernel

/-- The method of the controller stands under the name of the other class. -/
theorem namedByLast_ofProject_shared :
    ∃ r e, ofProject .sequential .ci3 crowdedProject shared = .ok r ∧
      r.controllers.get? "Cart" = some e ∧ Stores .loader shared "Cart" e ∧
      e.methods.map MethodFact.className = [some "Orders", some "Cart"] := by
  have hnamed : shared.Named := by decide +kernel
  have hknown : Generation.ci3.isKnown = true := by decide
  obtain ⟨rules, r, hrules, -, hr, hstores, -⟩ :=
    namedByLast_ofProject hnamed hknown .sequential crowdedProject
  obtain rfl := Except.ok.inj hrules
  obtain ⟨_, r', hrules', -, hr', hcontrollers, -⟩ :=
    exists_ofProject hknown .sequential crowdedProject shared
  obtain rfl := Except.ok.inj hrules'
  obtain rfl : r = r' := Except.ok.inj (hr.symm.trans hr')
  have hdeclared : (declared? .loader shared ⟨"src/application/controllers/Orders.php"⟩).map
      (fun e => (e.1, e.2.methods.map MethodFact.className)) =
      some ("Cart", [some "Orders", some "Cart"]) := by
    decide +kernel
  obtain ⟨⟨name, e⟩, he, hboth⟩ := Option.map_eq_some_iff.1 hdeclared
  obtain ⟨rfl, hclasses⟩ := Prod.mk.inj hboth
  have hfiles := nodup_areas hnamed crowdedProject .ci3
  have hcart : r.controllers.get? "Cart" = some e := by
    rw [hcontrollers, get?_classes_iff .sequential .loader
      (hfiles.sublist ((List.sublist_append_left _ _).map _)), php_shared]
    exact ⟨[], _, [], rfl, he, List.forall_mem_nil _⟩
  exact ⟨r, e, hr, hcart, hstores "Cart" e hcart, hclasses⟩

end Inventory

end Resettle
