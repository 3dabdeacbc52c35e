import Resettle.Inventory.Analysis
import Resettle.Proofs.Disk.Listing
import Resettle.Proofs.Disk.Writing
import Resettle.Proofs.Inventory.Batches

/-!
# What an inventory accounts for

Every file of the controllers and of the models is accounted for by itself: it is among the errors
with its own message, or what it declares is in the inventory unless an earlier file declares the
same.  No file changes what another is accounted for.
-/

namespace Resettle.Inventory

variable {σ α : Type}

/-! ## One file -/

/-- The error of a file that cannot be read or parsed, under its path. -/
def fault? (d : Disk) (f : Path) : Option (Path × String) :=
  match Php.ofFile d f with
  | .ok _ => none
  | .error e => some (f, e.message)

/-- What a file declares under its name, or under the stem of its path if it declares none. -/
def declared? (rules : ClassRules) (d : Disk) (f : Path) : Option (String × ClassEntry) :=
  match rules.collector.ofFile d f with
  | .ok facts => some (facts.name.getD (f.fileStem?.getD ""),
      ⟨f, facts.parent, facts.methods, facts.tables⟩)
  | .error _ => none

/-- The routes of a file, none if it cannot be read or parsed. -/
def routesOf (d : Disk) (f : Path) : List Route :=
  match Routes.collector.ofFile d f with
  | .ok routes => routes
  | .error _ => []

/-- An entry is what the first of some files declares under a name. -/
def IsFirst (rules : ClassRules) (d : Disk) (files : List Path) (name : String) (e : ClassEntry) :
    Prop :=
  ∃ front f behind, files = front ++ f :: behind ∧ declared? rules d f = some (name, e) ∧
    ∀ other ∈ front, ∀ e', declared? rules d other ≠ some (name, e')

theorem isFirst_cons_iff {rules : ClassRules} {d : Disk} {f : Path} {files : List Path}
    {name : String} {e : ClassEntry} :
    IsFirst rules d (f :: files) name e ↔
      declared? rules d f = some (name, e) ∨
        (∀ e', declared? rules d f ≠ some (name, e')) ∧ IsFirst rules d files name e := by
  constructor
  · rintro ⟨front, f', behind, hcut, hdeclared, hfront⟩
    cases front with
    | nil =>
        obtain ⟨rfl, -⟩ := List.cons.inj hcut
        exact .inl hdeclared
    | cons first front =>
        obtain ⟨rfl, rfl⟩ := List.cons.inj hcut
        obtain ⟨hfirst, hfront⟩ := List.forall_mem_cons.1 hfront
        exact .inr ⟨hfirst, front, f', behind, rfl, hdeclared, hfront⟩
  · rintro (hdeclared | ⟨hfirst, front, f', behind, rfl, hdeclared, hfront⟩)
    · exact ⟨[], f, files, rfl, hdeclared, List.forall_mem_nil _⟩
    · exact ⟨f :: front, f', behind, rfl, hdeclared, List.forall_mem_cons.2 ⟨hfirst, hfront⟩⟩

/-- Which collector looks at a file does not matter to the error of the file. -/
theorem message?_ofFile (c : Collector σ α) (d : Disk) (f : Path) :
    Batch.message? (f, c.ofFile d f) = fault? d f := by
  unfold Batch.message? fault? Collector.ofFile
  cases Php.ofFile d f <;> rfl

/-! ## Many files -/

variable {d : Disk} {files : List Path}

theorem errors_ofFiles (m : Mode) (c : Collector σ α) (h : (files.map Path.place).Nodup) :
    (Batch.ofFiles m c d files).errors.entries = files.filterMap (fault? d) := by
  rw [(Batch.ofFiles_spec h).2]
  exact List.filterMap_congr fun f _ => message?_ofFile c d f

/-- The classes of a batch are what its files declare, taken in file by file. -/
theorem classes_ofFiles (m : Mode) (rules : ClassRules) (h : (files.map Path.place).Nodup) :
    classes (Batch.ofFiles m rules.collector d files) =
      (files.filterMap (declared? rules d)).foldl (fun found e => found.insertIfNew e.1 e.2)
        .empty := by
  let named (e : Path × ClassFacts) : String × ClassEntry :=
    (e.2.name.getD (e.1.fileStem?.getD ""), ⟨e.1, e.2.parent, e.2.methods, e.2.tables⟩)
  have hnamed : files.filterMap (declared? rules d) =
      (files.filterMap fun f => Batch.value? (f, rules.collector.ofFile d f)).map named := by
    rw [List.map_filterMap]
    refine List.filterMap_congr fun f _ => ?_
    unfold declared? Batch.value?
    cases rules.collector.ofFile d f <;> rfl
  rw [hnamed, List.foldl_map, classes, (Batch.ofFiles_spec h).1]

theorem routes_ofFiles (m : Mode) (h : (files.map Path.place).Nodup) :
    (Batch.ofFiles m Routes.collector d files).success.entries.flatMap Prod.snd =
      files.flatMap (routesOf d) := by
  rw [(Batch.ofFiles_spec h).1]
  clear h
  induction files with
  | nil => rfl
  | cons f files ih =>
      rw [List.filterMap_cons, List.flatMap_cons, ← ih, Batch.value?, routesOf]
      cases Routes.collector.ofFile d f <;> rfl

/-- Under a name stands what the first file declares that declares it. -/
theorem get?_classes_iff (m : Mode) (rules : ClassRules) (h : (files.map Path.place).Nodup)
    {name : String} {e : ClassEntry} :
    (classes (Batch.ofFiles m rules.collector d files)).get? name = some e ↔
      IsFirst rules d files name e := by
  rw [classes_ofFiles m rules h, Dictionary.get?_foldl_insertIfNew, Dictionary.get?_empty,
    Option.none_or]
  clear h
  induction files with
  | nil => simp [Dictionary.find?, IsFirst]
  | cons f files ih =>
      rw [List.filterMap_cons, isFirst_cons_iff]
      cases hf : declared? rules d f with
      | none => simpa using ih
      | some found =>
          obtain ⟨name', e'⟩ := found
          by_cases hname : name' = name
          · subst hname
            simp [Dictionary.find?]
          · simpa [Dictionary.find?, hname] using ih

theorem keys_classes (m : Mode) (rules : ClassRules) (h : (files.map Path.place).Nodup) :
    (classes (Batch.ofFiles m rules.collector d files)).keys =
      distinct ((files.filterMap (declared? rules d)).map Prod.fst) := by
  rw [classes_ofFiles m rules h, Dictionary.keys_foldl_insertIfNew]
  rfl

/-! ## The whole inventory -/

/-- An inventory tells of the files of controllers and of models what each of them gives by
itself. -/
structure Accounts (d : Disk) (controllerRules modelRules : ClassRules)
    (controllerFiles modelFiles : List Path) (r : Inventory) : Prop where
  errors : r.errors.entries = (controllerFiles ++ modelFiles).filterMap (fault? d)
  controllers : ∀ name e, r.controllers.get? name = some e ↔
    IsFirst controllerRules d controllerFiles name e
  controllerOrder : r.controllers.keys =
    distinct ((controllerFiles.filterMap (declared? controllerRules d)).map Prod.fst)
  models : ∀ name e, r.models.get? name = some e ↔ IsFirst modelRules d modelFiles name e
  modelOrder : r.models.keys =
    distinct ((modelFiles.filterMap (declared? modelRules d)).map Prod.fst)
  routes : r.routes = controllerFiles.flatMap (routesOf d)

theorem fst_of_fault? {f : Path} {e : Path × String} (h : fault? d f = some e) : e.1 = f := by
  unfold fault? at h
  split at h
  · cases h
  · cases h
    rfl

/-- The errors of two batches and of the first one again are the errors of all files, each once. -/
theorem entries_insertMany_faults {files files' : List Path}
    (h : ((files ++ files').map Path.place).Nodup) :
    (((PathMap.empty.insertMany (files.filterMap (fault? d))).insertMany
      (files'.filterMap (fault? d))).insertMany (files.filterMap (fault? d))).entries =
      (files ++ files').filterMap (fault? d) := by
  have hplaces : (((files ++ files').filterMap (fault? d)).map fun e => e.1.place).Nodup :=
    (Batch.sublist_places (fun _ _ => fst_of_fault?) (files ++ files')).nodup h
  rw [List.filterMap_append] at hplaces ⊢
  have hfirst : (PathMap.empty.insertMany (files.filterMap (fault? d))).entries =
      files.filterMap (fault? d) :=
    PathMap.insertMany_of_nodup (hplaces.sublist ((List.sublist_append_left _ _).map _))
  have hboth : ((PathMap.empty.insertMany (files.filterMap (fault? d))).insertMany
      (files'.filterMap (fault? d))).entries =
        files.filterMap (fault? d) ++ files'.filterMap (fault? d) := by
    rw [PathMap.insertMany_of_nodup, hfirst]
    rwa [PathMap.places, hfirst, ← List.map_append]
  rw [PathMap.insertMany_of_subset, hboth]
  rw [hboth]
  exact List.subset_append_left _ _

theorem exists_rules {g : Generation} (h : g.isKnown = true) :
    ∃ rules, g.controllerRules = .ok rules ∧ g.modelRules = .ok rules.withTables ∧
      g.routeCollector = .ok Routes.collector := by
  cases g
  case unknown => cases h
  all_goals exact ⟨_, rfl, rfl, rfl⟩

theorem isName_directory (a : Area) (g : Generation) : Disk.IsName (a.directory g) := by
  cases a <;> cases g <;> decide

theorem directory_ne (g : Generation) :
    Area.controllers.directory g ≠ Area.models.directory g := by
  cases g <;> decide

theorem nodup_areas (hnamed : d.Named) (p : Project) (g : Generation) :
    ((Listing.php d (p.areaDir g .controllers) ++ Listing.php d (p.areaDir g .models)).map
      Path.place).Nodup := by
  have hcontrollers := isName_directory .controllers g
  have hmodels := isName_directory .models g
  rw [List.map_append]
  exact (Listing.nodup_places hnamed hcontrollers).append (Listing.nodup_places hnamed hmodels)
    (Listing.disjoint_places hnamed hcontrollers hmodels (directory_ne g))

/-- The inventory of a project of a known generation succeeds and accounts for every file of its
controllers and its models. -/
theorem accounts_ofProject {d : Disk} {g : Generation} (hnamed : d.Named) (hknown : g.isKnown = true)
    (m : Mode) (p : Project) :
    ∃ rules r, g.controllerRules = .ok rules ∧ g.modelRules = .ok rules.withTables ∧
      ofProject m g p d = .ok r ∧
      Accounts d rules rules.withTables (Listing.php d (p.areaDir g .controllers))
        (Listing.php d (p.areaDir g .models)) r := by
  obtain ⟨rules, hcontrollers, hmodels, hroutes⟩ := exists_rules hknown
  have hfiles := nodup_areas hnamed p g
  have hfirst := hfiles.sublist ((List.sublist_append_left _ _).map _)
  have hsecond := hfiles.sublist ((List.sublist_append_right _ _).map _)
  cases hr : ofProject m g p d with
  | error e =>
      unfold ofProject at hr
      rw [hcontrollers, hmodels, hroutes] at hr
      cases hr
  | ok r =>
      unfold ofProject at hr
      rw [hcontrollers, hmodels, hroutes] at hr
      obtain rfl := Except.ok.inj hr
      refine ⟨rules, _, hcontrollers, hmodels, rfl, ?_⟩
      constructor
      · simp only [errors_ofFiles m _ hfirst, errors_ofFiles m _ hsecond]
        exact entries_insertMany_faults hfiles
      · exact fun _ _ => get?_classes_iff m rules hfirst
      · exact keys_classes m rules hfirst
      · exact fun _ _ => get?_classes_iff m rules.withTables hsecond
      · exact keys_classes m rules.withTables hsecond
      · exact routes_ofFiles m hfirst

/-- A disk with a controller that cannot be parsed between two that declare one class, and with a
model that cannot be read. -/
def crowded : Disk :=
  .ofEntries
    [([], "src", .directory), (["src"], "application", .directory),
      (["src", "application"], "controllers", .directory),
      (["src", "application", "controllers"], "a.php",
        .file (.text "<?php class Shop { function cart() {} }") false),
      (["src", "application", "controllers"], "b.php", .file (.text "<?php class \x7b") false),
      (["src", "application", "controllers"], "c.php",
        .file (.text "<?php class Shop { function sale() {} }") false),
      (["src", "application"], "models", .directory),
      (["src", "application", "models"], "m.php", .file (.binary [255]) false)]

def crowdedProject : Project :=
  .create ⟨"src"⟩ ⟨"out"⟩ "app"

theorem php_crowded :
    Listing.php crowded (crowdedProject.areaDir .ci3 .controllers) =
        [⟨"src/application/controllers/a.php"⟩, ⟨"src/application/controllers/b.php"⟩,
          ⟨"src/application/controllers/c.php"⟩] ∧
      Listing.php crowded (crowdedProject.areaDir .ci3 .models) =
        [⟨"src/application/models/m.php"⟩] := by
  have hcontrollers : crowded.names ⟨"src/application/controllers"⟩ = ["a.php", "b.php", "c.php"] :=
    @Disk.names_of_pairwise _ _ ["src", "application", "controllers"] _ (by decide +kernel)
      (by decide +kernel) (by decide +kernel)
  have hmodels : crowded.names ⟨"src/application/models"⟩ = ["m.php"] :=
    @Disk.names_of_pairwise _ _ ["src", "application", "models"] _ (by decide +kernel)
      (by decide +kernel) (by decide +kernel)
  constructor
  · rw [Listing.php_of_names (by decide +kernel) (by decide +kernel) hcontrollers]
    decide +kernel
  · rw [Listing.php_of_names (by decide +kernel) (by decide +kernel) hmodels]
    decide +kernel

/-- The broken files are the errors, and the class that two files declare is that of the first. -/
theorem accounts_ofProject_crowded :
    ∃ r, ofProject .sequential .ci3 crowdedProject crowded = .ok r ∧
      r.errors.entries.map (fun e => e.1.text) =
        ["src/application/controllers/b.php", "src/application/models/m.php"] ∧
      r.controllers.keys = ["Shop"] ∧
      (r.controllers.get? "Shop").map (fun e => e.file.text) =
        some "src/application/controllers/a.php" := by
  have hnamed : crowded.Named := by decide +kernel
  have hknown : Generation.ci3.isKnown = true := by decide
  obtain ⟨rules, r, hrules, -, hr, haccounts⟩ :=
    accounts_ofProject hnamed hknown .sequential crowdedProject
  obtain rfl := Except.ok.inj hrules
  rw [php_crowded.1, php_crowded.2] at haccounts
  refine ⟨r, hr, ?_, ?_, ?_⟩
  · rw [haccounts.errors]
    decide +kernel
  · rw [haccounts.controllerOrder]
    decide +kernel
  · have hdeclared : (declared? .loader crowded ⟨"src/application/controllers/a.php"⟩).map
        (fun e => (e.1, e.2.file.text)) = some ("Shop", "src/application/controllers/a.php") := by
      decide +kernel
    obtain ⟨⟨name, e⟩, he, hfile⟩ := Option.map_eq_some_iff.1 hdeclared
    obtain ⟨rfl, hfile⟩ := Prod.mk.inj hfile
    rw [(haccounts.controllers _ _).2 ⟨[], _, _, rfl, he, List.forall_mem_nil _⟩]
    exact congrArg some hfile

end Resettle.Inventory
