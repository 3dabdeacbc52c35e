import Mathlib.Data.List.Nodup
import Mathlib.Logic.Relation
import Resettle.Proofs.Conversion.Again
import Resettle.Proofs.Scalar.Lookup

/-!
# Settings under either spelling

Some settings have one name in older source projects and another one in newer ones.  Settings may be
restated: a name is exchanged for its other spelling, the entries change places, a null is put under
a spelling that is free, or a name that nobody asks for gets a value.  The main statement says that
the updates of a target project stay the same however often this is done, and that they name one
driver throughout.
-/

namespace Resettle

namespace Updates

open Values

variable {config config' database database' values values' : Values} {name name' : String}
  {groups : List (List String)}

/-! ## What the updates are made of -/

/-- The settings that are looked up in a configuration file, each with its names. -/
def configNames : List (List String) :=
  [["site_title", "site_name"], ["base_url", "baseURL"], ["debug"]]

def databaseNames : List (List String) :=
  [Names.driver, ["hostname"], ["port"], ["database"], ["username"], ["password"],
    Names.tablePrefix, Names.charset, Names.collation, Names.strict]

theorem ofValues_congr (h : AgreeOn databaseNames database database') :
    ConnectionDriver.ofValues database' = ConnectionDriver.ofValues database := by
  rw [ConnectionDriver.ofValues, ConnectionDriver.ofValues, h Names.driver (by decide)]

theorem hostPort_congr (h : AgreeOn databaseNames database database') :
    hostPort database' = hostPort database := by
  rw [hostPort, hostPort, textOr, textOr, h ["hostname"] (by decide)]

theorem port_congr (h : AgreeOn databaseNames database database') (driver : ConnectionDriver) :
    port driver database' = port driver database := by
  rw [port, port, hostPort_congr h, explicitPort?, explicitPort?, h ["port"] (by decide)]

theorem environment_congr (hconfig : AgreeOn configNames config config')
    (hdatabase : AgreeOn databaseNames database database') (settings : Settings) :
    environment config' database' settings = environment config database settings := by
  simp only [environment, textOr, ofValues_congr hdatabase, hostPort_congr hdatabase,
    port_congr hdatabase, hconfig ["site_title", "site_name"] (by decide),
    hconfig ["base_url", "baseURL"] (by decide), hconfig ["debug"] (by decide),
    hdatabase ["database"] (by decide), hdatabase ["username"] (by decide),
    hdatabase ["password"] (by decide)]

theorem fields_congr (h : AgreeOn databaseNames database database') (driver : ConnectionDriver) :
    driver.fields database' = driver.fields database := by
  simp only [ConnectionDriver.fields, ConnectionDriver.settingOr, ConnectionDriver.isStrict,
    h Names.tablePrefix (by decide), h Names.charset (by decide), h Names.collation (by decide),
    h Names.strict (by decide)]

theorem connection_congr (h : AgreeOn databaseNames database database') :
    connection database' = connection database := by
  simp only [connection, ofValues_congr h, fields_congr h]

/-! ## Restated settings -/

/-- The settings with a name for each of the two generations. -/
def spellings : List (String × String) :=
  [("dbdriver", "DBDriver"), ("dbprefix", "DBPrefix"), ("char_set", "charset"),
    ("dbcollat", "DBCollat"), ("stricton", "strictOn"), ("base_url", "baseURL")]

/-- Two names of one setting. -/
def AreSpellings (name name' : String) : Prop :=
  (name, name') ∈ spellings ∨ (name', name) ∈ spellings

/-- One way to restate values among which some settings are looked up. -/
inductive Restates (groups : List (List String)) : Values → Values → Prop
  /-- A name gives way to its other spelling, which was free since no name occurs twice. -/
  | renamed {values values' : Values} {name name' : String} {front back : List (String × Scalar)}
      {v : Scalar} (h : AreSpellings name name')
      (hold : values.entries = front ++ (name, v) :: back)
      (hnew : values'.entries = front ++ (name', v) :: back) : Restates groups values values'
  | reordered {values values' : Values} (h : values.entries.Perm values'.entries) :
      Restates groups values values'
  | nullAdded {values : Values} {name name' : String} (h : AreSpellings name name')
      (hfree : name' ∉ values.keys) : Restates groups values (values.insert name' .null)
  | unreadAdded {values : Values} {name : String} (hunread : name ∉ groups.flatten) (v : Scalar) :
      Restates groups values (values.insert name v)

/-- The two spellings of a setting are looked up together or not at all. -/
def KeepsPairs (groups : List (List String)) : Prop :=
  ∀ names ∈ groups, ∀ pair ∈ spellings,
    names = [pair.1, pair.2] ∨ pair.1 ∉ names ∧ pair.2 ∉ names

theorem keepsPairs_configNames : KeepsPairs configNames := by
  unfold KeepsPairs
  decide

theorem keepsPairs_databaseNames : KeepsPairs databaseNames := by
  unfold KeepsPairs
  decide

theorem AreSpellings.ne (h : AreSpellings name name') : name ≠ name' := by
  have hdistinct : ∀ pair ∈ spellings, pair.1 ≠ pair.2 := by decide
  rcases h with h | h
  · exact hdistinct _ h
  · exact (hdistinct _ h).symm

theorem notMem_keys_of_renamed {front back : List (String × Scalar)} {v : Scalar}
    (hne : name ≠ name') (hold : values.entries = front ++ (name, v) :: back)
    (hnew : values'.entries = front ++ (name', v) :: back) : name' ∉ values.keys := by
  have hnodup := values'.nodup
  rw [hnew, List.map_append, List.map_cons, List.nodup_middle, List.nodup_cons,
    List.mem_append] at hnodup
  rw [Dictionary.keys, hold, List.map_append, List.map_cons, List.mem_append, List.mem_cons]
  rintro (hfront | rfl | hback)
  · exact hnodup.1 (.inl hfront)
  · exact hne rfl
  · exact hnodup.1 (.inr hback)

theorem lookup_renamed {front back : List (String × Scalar)} {v : Scalar} {names : List String}
    (hpairs : KeepsPairs groups) (hnames : names ∈ groups) (h : AreSpellings name name')
    (hold : values.entries = front ++ (name, v) :: back)
    (hnew : values'.entries = front ++ (name', v) :: back) :
    values'.lookup names = values.lookup names := by
  -- Names of other settings stand in front of the renamed entry or behind it.
  have hother : name ∉ names → name' ∉ names → values'.lookup names = values.lookup names := by
    intro hname hname'
    refine lookup_congr fun other hmem => given?_congr fun w => ?_
    have hne : other ≠ name := fun heq => hname (heq ▸ hmem)
    have hne' : other ≠ name' := fun heq => hname' (heq ▸ hmem)
    simp [hold, hnew, hne, hne']
  have hmoved : values'.given? name' = values.given? name := by
    have hv : values.get? name = some v := (Dictionary.get?_eq_some_iff _).2 (by simp [hold])
    have hv' : values'.get? name' = some v := (Dictionary.get?_eq_some_iff _).2 (by simp [hnew])
    rw [given?, given?, hv, hv']
  have hswap := lookup_swap (given?_of_notMem (notMem_keys_of_renamed h.ne hold hnew))
    (given?_of_notMem (notMem_keys_of_renamed h.ne.symm hnew hold)) hmoved
  rcases h with hpair | hpair
  · rcases hpairs names hnames _ hpair with rfl | ⟨hname, hname'⟩
    · exact hswap.1
    · exact hother hname hname'
  · rcases hpairs names hnames _ hpair with rfl | ⟨hname', hname⟩
    · exact hswap.2
    · exact hother hname hname'

/-- No setting that is looked up shows that the values were restated. -/
theorem Restates.agreeOn (hpairs : KeepsPairs groups) (h : Restates groups values values') :
    AgreeOn groups values values' := by
  intro names hnames
  cases h with
  | renamed h hold hnew => exact lookup_renamed hpairs hnames h hold hnew
  | reordered h => exact lookup_congr fun name _ => given?_congr fun v => h.mem_iff.symm
  | @nullAdded _ added _ hfree =>
      refine lookup_congr fun other _ => ?_
      by_cases heq : other = added
      · rw [heq, given?_insert_null, given?_of_notMem hfree]
      · exact given?_insert_of_ne values heq .null
  | @unreadAdded added hunread v =>
      refine lookup_congr fun other hmem => given?_insert_of_ne values ?_ v
      rintro rfl
      exact hunread (List.mem_flatten_of_mem hnames hmem)

theorem agreeOn_of_reflTransGen (hpairs : KeepsPairs groups)
    (h : Relation.ReflTransGen (Restates groups) values values') :
    AgreeOn groups values values' := by
  induction h with
  | refl => exact .refl groups values
  | tail _ hstep ih => exact ih.trans (hstep.agreeOn hpairs)

/-! ## One driver throughout -/

/-- A driver is the connection of the environment, the block that a conversion changes, and the
driver in this block. -/
structure NamesDriver (config database : Values) (settings : Settings) (driver : String) :
    Prop where
  asConnection : ∀ value,
    ("DB_CONNECTION", value) ∈ environment config database settings ↔ value = driver
  asField : ∀ value, ("driver", value) ∈ (connection database).2 ↔ value = .string driver
  asBlock : ∀ p t content,
    (∃ env, Conversion.patched settings p ⟨config, database⟩ t = .ok ⟨env, content⟩) ↔
      ConnectionBlock.patch? t.database driver (connection database).2 = some content

theorem mem_fields_driver (driver : ConnectionDriver) (values : Values) (value : Scalar) :
    ("driver", value) ∈ driver.fields values ↔ value = .string driver.name := by
  cases driver <;> simp [ConnectionDriver.fields]

theorem namesDriver (config database : Values) (settings : Settings) :
    NamesDriver config database settings (connection database).1.name where
  asConnection value := by simp [environment, connection]
  asField := mem_fields_driver _ database
  asBlock p t content := by
    simp only [Conversion.patched_eq_ok_iff]
    exact ⟨fun ⟨_, hpatch, _⟩ => hpatch, fun hpatch => ⟨_, hpatch, rfl⟩⟩

/-- Restating the settings of a project changes no assignment of the environment file, nor the
driver of the connection or one of its fields, and all three name the same driver. -/
theorem restated_migrates_alike (settings : Settings)
    (hconfig : Relation.ReflTransGen (Restates configNames) config config')
    (hdatabase : Relation.ReflTransGen (Restates databaseNames) database database') :
    environment config' database' settings = environment config database settings ∧
      connection database' = connection database ∧
      NamesDriver config database settings (connection database).1.name := by
  have hconfig' := agreeOn_of_reflTransGen keepsPairs_configNames hconfig
  have hdatabase' := agreeOn_of_reflTransGen keepsPairs_databaseNames hdatabase
  exact ⟨environment_congr hconfig' hdatabase' settings, connection_congr hdatabase',
    namesDriver config database settings⟩

/-- The names of a database become those of the newer generation, a null stays under an older one,
and a configuration gets a setting that is not looked up. -/
theorem restated_migrates_alike_postgre :
    let config : Values := .ofList [("base_url", .string "http://shop.test/")]
    let config' : Values :=
      .ofList [("locale", .string "de"), ("baseURL", .string "http://shop.test/")]
    let database : Values :=
      .ofList [("dbdriver", .string "postgre"), ("char_set", .string "latin1")]
    let database' : Values :=
      .ofList [("DBDriver", .string "postgre"), ("charset", .string "latin1"), ("char_set", .null)]
    Relation.ReflTransGen (Restates configNames) config config' ∧
      Relation.ReflTransGen (Restates databaseNames) database database' ∧
      environment config' database' {} = environment config database {} ∧
      connection database' = connection database ∧ NamesDriver config database {} "pgsql" := by
  intro config config' database database'
  have hurl : Restates configNames config (.ofList [("baseURL", .string "http://shop.test/")]) :=
    .renamed (.inl (by decide)) (show _ = [] ++ ("base_url", _) :: [] from rfl) rfl
  have hlocale : Restates configNames (.ofList [("baseURL", .string "http://shop.test/")])
      (.ofList [("baseURL", .string "http://shop.test/"), ("locale", .string "de")]) :=
    .unreadAdded (by decide) (.string "de")
  have hconfig : Relation.ReflTransGen (Restates configNames) config config' :=
    .tail (.tail (.single hurl) hlocale) (.reordered (.swap _ _ _))
  have hdriver : Restates databaseNames database
      (.ofList [("DBDriver", .string "postgre"), ("char_set", .string "latin1")]) :=
    .renamed (.inl (by decide)) (show _ = [] ++ ("dbdriver", _) :: [_] from rfl) rfl
  have hcharset : Restates databaseNames
      (.ofList [("DBDriver", .string "postgre"), ("char_set", .string "latin1")])
      (.ofList [("DBDriver", .string "postgre"), ("charset", .string "latin1")]) :=
    .renamed (.inl (by decide)) (show _ = [_] ++ ("char_set", _) :: [] from rfl) rfl
  have hnull : Restates databaseNames
      (.ofList [("DBDriver", .string "postgre"), ("charset", .string "latin1")]) database' :=
    .nullAdded (show AreSpellings "charset" "char_set" from .inr (by decide)) (by decide)
  have hdatabase : Relation.ReflTransGen (Restates databaseNames) database database' :=
    .tail (.tail (.single hdriver) hcharset) hnull
  exact ⟨hconfig, hdatabase, restated_migrates_alike {} hconfig hdatabase⟩

end Updates

end Resettle
