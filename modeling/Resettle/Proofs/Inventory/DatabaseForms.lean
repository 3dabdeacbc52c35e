import Resettle.Php.Grammar.Statement
import Resettle.Proofs.Inventory.Wrappers
import Resettle.Proofs.LastGiven
import Resettle.Proofs.Php.Shapes

/-!
# Ways to write database settings

The same settings can be a list that is assigned to the group, one assignment for each setting, or
a list that is the default value of a property.  From all three the same dictionary is made, and
whatever stands between the settings is left aside if it does not set the group or the property
itself, at any depth.
-/

namespace Resettle

open Php (Node)

/-- The entries of one list stand in order among others, which are left aside. -/
inductive Among {α β : Type} (stands : α → β → Prop) (aside : β → Prop) : List α → List β → Prop
  | nil : Among stands aside [] []
  | keep {x : α} {y : β} {xs : List α} {ys : List β} (h : stands x y)
      (rest : Among stands aside xs ys) : Among stands aside (x :: xs) (y :: ys)
  | skip {y : β} {xs : List α} {ys : List β} (h : aside y) (rest : Among stands aside xs ys) :
      Among stands aside xs (y :: ys)

namespace Among

variable {α β γ : Type} {stands : α → β → Prop} {aside : β → Prop} {xs : List α} {ys : List β}

theorem flatMap_eq {f : β → List γ} {g : α → List γ} (h : Among stands aside xs ys)
    (hstands : ∀ x ∈ xs, ∀ y, stands x y → f y = g x) (haside : ∀ y, aside y → f y = []) :
    ys.flatMap f = xs.flatMap g := by
  induction h with
  | nil => rfl
  | keep hstand rest ih =>
      rw [List.flatMap_cons, List.flatMap_cons, hstands _ List.mem_cons_self _ hstand,
        ih fun x hx => hstands x (List.mem_cons_of_mem _ hx)]
  | skip hskip rest ih => rw [List.flatMap_cons, haside _ hskip, List.nil_append, ih hstands]

theorem filter_eq {ys' : List β} {p : β → Bool} (h : Among (· = ·) aside ys' ys)
    (hkeep : ∀ y ∈ ys', p y = true) (haside : ∀ y, aside y → p y = false) : ys.filter p = ys' := by
  induction h with
  | nil => rfl
  | keep hstand rest ih =>
      subst hstand
      rw [List.filter_cons_of_pos (hkeep _ List.mem_cons_self),
        ih fun y hy => hkeep y (List.mem_cons_of_mem _ hy)]
  | skip hskip rest ih =>
      rw [List.filter_cons_of_neg (ne_true_of_eq_false (haside _ hskip)), ih hkeep]

theorem flatMap_single {x : β} {f : β → List γ} (h : Among (· = ·) aside [x] ys)
    (haside : ∀ y, aside y → f y = []) : ys.flatMap f = f x := by
  rw [h.flatMap_eq (g := f) (fun x _ y hxy => hxy ▸ rfl) haside, List.flatMap_singleton]

end Among

namespace DatabaseShape

/-! ## What settings are read from -/

/-- The node sets the group, one element of it to a literal, or the property. -/
inductive Sets : DatabaseShape → Node → Prop
  | group {variableName groupName : String} {value : Node} :
      Sets (.group variableName groupName)
        (.assign ((Node.var variableName).element groupName) value)
  | element {variableName groupName key : String} {v : Scalar} :
      Sets (.group variableName groupName)
        (.assign (((Node.var variableName).element groupName).element key) (.literal v))
  | property {name : String} {visibility : Php.Visibility} {value : Option Node}
      {elements : List (String × Option Node)} (h : (name, value) ∈ elements) :
      Sets (.property name) (.property visibility elements)

theorem settings_group (variableName groupName : String) (value : Node) :
    (group variableName groupName).settings
      (.assign ((Node.var variableName).element groupName) value) = value.literalItems := by
  rw [settings, if_pos (Node.keyIn?_eq_some_iff.2 rfl)]

theorem settings_element (variableName groupName key : String) (v : Scalar) :
    (group variableName groupName).settings
      (.assign (((Node.var variableName).element groupName).element key) (.literal v)) =
        [(key, v)] := by
  have hbase : ((Node.var variableName).element groupName).keyIn? variableName = some groupName :=
    Node.keyIn?_eq_some_iff.2 rfl
  have hkey : (Node.text key).string? = some key := Node.string?_eq_some_iff.2 rfl
  have htarget : (((Node.var variableName).element groupName).element key).keyIn? variableName ≠
      some groupName := by
    intro h
    cases Node.keyIn?_eq_some_iff.1 h
  rw [settings, if_neg htarget]
  simp only [hbase, hkey, Node.literal?, if_pos]

theorem settings_eq_nil {shape : DatabaseShape} {n : Node} (h : ¬ shape.Sets n) :
    shape.settings n = [] := by
  unfold settings
  split
  · next variableName groupName target value =>
      split
      · next htarget =>
          rw [Node.keyIn?_eq_some_iff.1 htarget] at h
          exact absurd .group h
      · split
        · split
          · next houter hinner hv =>
              refine if_neg ?_
              rintro rfl
              rw [Node.keyIn?_eq_some_iff.1 houter, Node.string?_eq_some_iff.1 hinner,
                Node.literal?_eq_some_iff.1 hv] at h
              exact h .element
          · rfl
        · rfl
  · next name visibility elements =>
      have hnone : (elements.filter fun e => e.1 == name) = [] := by
        rw [List.filter_eq_nil_iff]
        rintro ⟨name', value⟩ hmem hname
        obtain rfl : name' = name := eq_of_beq hname
        exact h (.property hmem)
      rw [hnone, List.flatMap_nil]
  · rfl

/-! ## What a tree gives -/

def given (shape : DatabaseShape) (n : Node) : List (String × Scalar) :=
  n.preorder.flatMap shape.settings

theorem collect_eq (shape : DatabaseShape) (trees : List Node) :
    shape.collector.collect trees = .ofList (trees.flatMap shape.given) := by
  have hnodes : shape.collector.collect trees =
      .ofList ((Node.preorderList trees).flatMap shape.settings) :=
    Dictionary.foldl_insertMany _ _ _
  rw [hnodes, Node.preorderList_eq_flatMap, List.flatMap_assoc]
  rfl

/-- No node of the tree sets the group or the property. -/
def Aside (shape : DatabaseShape) (n : Node) : Prop :=
  ∀ m ∈ n.preorder, ¬ shape.Sets m

variable {shape : DatabaseShape} {n : Node}

theorem Aside.given_eq_nil (h : shape.Aside n) : shape.given n = [] :=
  List.flatMap_eq_nil_iff.2 fun m hm => settings_eq_nil (h m hm)

theorem flatMap_preorderOption_eq_nil {tree : Option Node} (h : ∀ n ∈ tree, shape.Aside n) :
    (Node.preorderOption tree).flatMap shape.settings = [] := by
  cases tree with
  | none => rfl
  | some n => exact (h n rfl).given_eq_nil

/-! ## Lists of settings -/

def ItemOf (e : String × Scalar) (item : Option Node × Node) : Prop :=
  item = (some (.text e.1), .literal e.2)

/-- The item has no string literal as key or no literal as value, and nothing in it sets the group
or the property. -/
structure AsideItem (shape : DatabaseShape) (item : Option Node × Node) : Prop where
  not_literal : ∀ key v, item ≠ (some (.text key), .literal v)
  key : ∀ n ∈ item.1, shape.Aside n
  value : shape.Aside item.2

/-- The list has the items of some settings and other items between them. -/
abbrev Lists (shape : DatabaseShape) : List (String × Scalar) → List (Option Node × Node) → Prop :=
  Among ItemOf shape.AsideItem

variable {pairs : List (String × Scalar)} {items : List (Option Node × Node)}

theorem Lists.literalItems_eq (h : shape.Lists pairs items) :
    (Node.array items).literalItems = pairs := by
  induction h with
  | nil => rfl
  | keep hitem rest ih =>
      subst hitem
      exact congrArg (_ :: ·) ih
  | @skip item _ _ hitem rest ih =>
      rw [Node.literalItems, List.filterMap_cons_none]
      · exact ih
      rw [Option.eq_none_iff_forall_ne_some]
      rintro ⟨key, v⟩ hgives
      obtain ⟨keyNode, hkeyNode, hgives⟩ := Option.bind_eq_some_iff.1 hgives
      obtain ⟨key', hkey, hgives⟩ := Option.bind_eq_some_iff.1 hgives
      obtain ⟨v', hv, -⟩ := Option.bind_eq_some_iff.1 hgives
      obtain rfl := Node.string?_eq_some_iff.1 hkey
      exact hitem.not_literal key' v' (Prod.ext hkeyNode (Node.literal?_eq_some_iff.1 hv))

theorem Lists.given_array (h : shape.Lists pairs items) : shape.given (.array items) = [] := by
  have hself : shape.settings (.array items) = [] := settings_eq_nil nofun
  have hitems : (Node.preorderItems items).flatMap shape.settings =
      pairs.flatMap fun _ => ([] : List (String × Scalar)) := by
    rw [Node.preorderItems_eq_flatMap, List.flatMap_assoc]
    refine h.flatMap_eq ?_ fun item hitem => ?_
    · rintro e - _ rfl
      have hkey : shape.settings (.text e.1) = [] := settings_eq_nil nofun
      have hvalue : shape.settings (.literal e.2) = [] := settings_eq_nil nofun
      simp only [Node.preorderOption, Node.preorder, List.flatMap_append, List.flatMap_singleton,
        hkey, hvalue, List.append_nil]
    · rw [List.flatMap_append]
      exact List.append_eq_nil_iff.2
        ⟨flatMap_preorderOption_eq_nil hitem.key, hitem.value.given_eq_nil⟩
  rw [given, Node.preorder, List.flatMap_cons, hself, hitems]
  simp

/-! ## Statements -/

variable {variableName groupName name : String}

theorem Lists.given_group (h : (group variableName groupName).Lists pairs items) :
    (group variableName groupName).given
      (.assign ((Node.var variableName).element groupName) (.array items)) = pairs := by
  have htarget : (group variableName groupName).given ((Node.var variableName).element groupName) =
      [] := rfl
  have harray := h.given_array
  rw [given] at htarget harray
  rw [given, Node.preorder, List.flatMap_cons, List.flatMap_append, htarget, harray, settings_group,
    h.literalItems_eq, List.append_nil, List.append_nil]

theorem given_element (key : String) (v : Scalar) :
    (group variableName groupName).given
      (.assign (((Node.var variableName).element groupName).element key) (.literal v)) =
        [(key, v)] := by
  rw [given, Node.preorder, List.flatMap_cons, settings_element]
  rfl

/-- The element of a property statement has another name, and nothing in its default value sets the
property. -/
structure AsideElement (shape : DatabaseShape) (name : String) (e : String × Option Node) :
    Prop where
  name : e.1 ≠ name
  value : ∀ n ∈ e.2, shape.Aside n

theorem Lists.given_property {visibility : Php.Visibility} {elements : List (String × Option Node)}
    (h : (property name).Lists pairs items)
    (helements : Among (· = ·) ((property name).AsideElement name) [(name, some (.array items))]
      elements) :
    (property name).given (.property visibility elements) = pairs := by
  have hself : (property name).settings (.property visibility elements) = pairs := by
    have hsingle : elements.filter (fun e => e.1 == name) = [(name, some (.array items))] :=
      helements.filter_eq (by simp) fun e he => beq_eq_false_iff_ne.2 he.name
    rw [settings, hsingle, List.flatMap_singleton]
    exact h.literalItems_eq
  have hbelow : (Node.preorderElements elements).flatMap (property name).settings = [] := by
    rw [Node.preorderElements_eq_flatMap, List.flatMap_assoc]
    refine (helements.flatMap_single fun e he => flatMap_preorderOption_eq_nil he.value).trans ?_
    exact h.given_array
  rw [given, Node.preorder, List.flatMap_cons, hself, hbelow, List.append_nil]

/-! ## Files -/

/-- A statement assigns a list of the settings to the group, among other trees. -/
def WrittenAtOnce (variableName groupName : String) (pairs : List (String × Scalar))
    (trees : List Node) : Prop :=
  ∃ items, (group variableName groupName).Lists pairs items ∧
    Among (· = ·) (group variableName groupName).Aside
      [.assign ((Node.var variableName).element groupName) (.array items)] trees

/-- Statements assign the settings to elements of the group, among other trees. -/
def WrittenOneByOne (variableName groupName : String) (pairs : List (String × Scalar))
    (trees : List Node) : Prop :=
  Among (fun e n =>
      n = .assign (((Node.var variableName).element groupName).element e.1) (.literal e.2))
    (group variableName groupName).Aside pairs trees

/-- A class among other trees has a property with a list of the settings as its default value,
among other properties and members. -/
def WrittenAsDefault (name : String) (pairs : List (String × Scalar)) (trees : List Node) : Prop :=
  ∃ items elements visibility members className parent,
    (property name).Lists pairs items ∧
    Among (· = ·) ((property name).AsideElement name) [(name, some (.array items))] elements ∧
    Among (· = ·) (property name).Aside [.property visibility elements] members ∧
    Among (· = ·) (property name).Aside [.classDecl className parent members] trees

variable {trees : List Node}

theorem WrittenAtOnce.flatMap_given (h : WrittenAtOnce variableName groupName pairs trees) :
    trees.flatMap (group variableName groupName).given = pairs := by
  obtain ⟨items, hitems, hstatement⟩ := h
  rw [hstatement.flatMap_single fun n hn => hn.given_eq_nil, hitems.given_group]

theorem WrittenOneByOne.flatMap_given (h : WrittenOneByOne variableName groupName pairs trees) :
    trees.flatMap (group variableName groupName).given = pairs := by
  have hentries : trees.flatMap (group variableName groupName).given = pairs.flatMap fun e => [e] :=
    Among.flatMap_eq h (fun e _ n hn => hn ▸ given_element e.1 e.2) fun n hn => hn.given_eq_nil
  rw [hentries, List.flatMap_singleton']

theorem WrittenAsDefault.flatMap_given (h : WrittenAsDefault name pairs trees) :
    trees.flatMap (property name).given = pairs := by
  obtain ⟨items, elements, visibility, members, className, parent, hitems, helement, hmember,
    hclass⟩ := h
  have hself : (property name).settings (.classDecl className parent members) = [] :=
    settings_eq_nil nofun
  have hmembers : (Node.preorderList members).flatMap (property name).settings = pairs := by
    rw [Node.preorderList_eq_flatMap, List.flatMap_assoc]
    refine (hmember.flatMap_single fun n hn => hn.given_eq_nil).trans ?_
    exact hitems.given_property helement
  rw [hclass.flatMap_single fun n hn => hn.given_eq_nil, given, Node.preorder, List.flatMap_cons,
    hself, hmembers, List.nil_append]

theorem collect_eq_ofList {shape : DatabaseShape}
    (h : (Node.flattenList trees).flatMap shape.given = pairs) :
    shape.collector.collect trees = .ofList pairs := by
  rw [← Collector.collect_flattenList shape.overlooks_step, collect_eq, h]

/-- Settings that are written at once, one by one and as a default value make the same dictionary:
the keys in the order in which they first occur, each with its last value. -/
theorem forms_agree {whole single declared : List Node}
    (hwhole : WrittenAtOnce variableName groupName pairs (Node.flattenList whole))
    (hsingle : WrittenOneByOne variableName groupName pairs (Node.flattenList single))
    (hdeclared : WrittenAsDefault name pairs (Node.flattenList declared)) :
    ∃ values, LastGiven pairs values ∧
      (group variableName groupName).collector.collect whole = values ∧
      (group variableName groupName).collector.collect single = values ∧
      (property name).collector.collect declared = values :=
  ⟨.ofList pairs, Dictionary.lastGiven_ofList pairs, collect_eq_ofList hwhole.flatMap_given,
    collect_eq_ofList hsingle.flatMap_given, collect_eq_ofList hdeclared.flatMap_given⟩

/-! ## Files with other statements -/

/-- Settings with a repeated key. -/
def twoHosts : List (String × Scalar) :=
  [("hostname", .string "a"), ("port", .int 3306), ("hostname", .string "b")]

/-- A list of the settings with a computed one among them. -/
def twoHostsItems : List (Option Node × Node) :=
  [(some (.text "hostname"), .literal (.string "a")), (some (.text "password"), .call "secret" []),
    (some (.text "port"), .literal (.int 3306)), (some (.text "hostname"), .literal (.string "b"))]

/-- A file that sets another group before it assigns the list. -/
def twoHostsAtOnce : List Node :=
  [.assign ((Node.var "db").element "tests") (.array [(some (.text "port"), .literal (.int 1))]),
    .assign ((Node.var "db").element "default") (.array twoHostsItems)]

/-- A file that sets the elements one by one, in a branch some of them. -/
def twoHostsOneByOne : List Node :=
  [.assign (((Node.var "db").element "default").element "hostname") (.literal (.string "a")),
    .other [.assign (((Node.var "db").element "default").element "port") (.literal (.int 3306)),
      .assign (((Node.var "db").element "default").element "password") (.call "secret" [])],
    .assign (((Node.var "db").element "default").element "hostname") (.literal (.string "b"))]

/-- A file with a class that has the list as a default value behind another property. -/
def twoHostsAsDefault : List Node :=
  [.classDecl "Database" (some "Config")
    [.property .publicAccess [("defaultGroup", some (.literal (.string "default")))],
      .property .publicAccess [("default", some (.array twoHostsItems))]]]

theorem lists_twoHostsItems (shape : DatabaseShape) : shape.Lists twoHosts twoHostsItems := by
  have hkey : shape.Aside (.text "password") := by
    intro m hm hsets
    cases hsets <;> simp [Node.preorder] at hm
  have hcall : shape.Aside (.call "secret" []) := by
    intro m hm hsets
    cases hsets <;> simp [Node.preorder, Node.preorderList] at hm
  have hitem : shape.AsideItem (some (.text "password"), .call "secret" []) :=
    ⟨by simp, fun n hn => Option.mem_some.1 hn ▸ hkey, hcall⟩
  exact .keep rfl (.skip hitem (.keep rfl (.keep rfl .nil)))

theorem forms_agree_twoHosts :
    WrittenAtOnce "db" "default" twoHosts (Node.flattenList twoHostsAtOnce) ∧
    WrittenOneByOne "db" "default" twoHosts (Node.flattenList twoHostsOneByOne) ∧
    WrittenAsDefault "default" twoHosts (Node.flattenList twoHostsAsDefault) ∧
    ∃ values, LastGiven twoHosts values ∧
      (group "db" "default").collector.collect twoHostsAtOnce = values ∧
      (group "db" "default").collector.collect twoHostsOneByOne = values ∧
      (property "default").collector.collect twoHostsAsDefault = values := by
  have hgroup : (group "db" "default").Aside (.assign ((Node.var "db").element "tests")
      (.array [(some (.text "port"), .literal (.int 1))])) := by
    intro m hm hsets
    cases hsets <;> simp [Node.preorder, Node.preorderOption, Node.preorderItems] at hm
  have hcall : (group "db" "default").Aside (.assign
      (((Node.var "db").element "default").element "password") (.call "secret" [])) := by
    intro m hm hsets
    cases hsets <;> simp [Node.preorder, Node.preorderOption, Node.preorderList] at hm
  have hproperty : (property "default").Aside
      (.property .publicAccess [("defaultGroup", some (.literal (.string "default")))]) := by
    intro m hm hsets
    cases hsets with
    | property hmem =>
        simp only [Node.preorder, Node.preorderElements, Node.preorderOption, List.append_nil,
          List.mem_cons, Node.property.injEq, List.not_mem_nil, or_false, reduceCtorEq] at hm
        rw [hm.2] at hmem
        simp at hmem
  have hwhole : WrittenAtOnce "db" "default" twoHosts (Node.flattenList twoHostsAtOnce) :=
    ⟨twoHostsItems, lists_twoHostsItems _, .skip hgroup (.keep rfl .nil)⟩
  have hsingle : WrittenOneByOne "db" "default" twoHosts (Node.flattenList twoHostsOneByOne) :=
    .keep rfl (.keep rfl (.skip hcall (.keep rfl .nil)))
  have hdeclared : WrittenAsDefault "default" twoHosts (Node.flattenList twoHostsAsDefault) :=
    ⟨twoHostsItems, _, .publicAccess, _, "Database", some "Config", lists_twoHostsItems _,
      .keep rfl .nil, .skip hproperty (.keep rfl .nil), .keep rfl .nil⟩
  exact ⟨hwhole, hsingle, hdeclared, forms_agree hwhole hsingle hdeclared⟩

/-- A file that gives a variable an object of a nameless class in front of the class with the
settings. -/
def namelessClass : String :=
  "<?php $o = new class \x7b public $default = ['port' => 1]; \x7d; " ++
    "class Database \x7b public $default = ['hostname' => 'a']; \x7d"

def namelessClassItems : List (Option Node × Node) :=
  [(some (.text "hostname"), .literal (.string "a"))]

def namelessClassTrees : List Node :=
  [.assign (.var "o") (.other [.property .publicAccess
      [("default", some (.array [(some (.text "port"), .literal (.int 1))]))]]),
    .classDecl "Database" none
      [.property .publicAccess [("default", some (.array namelessClassItems))]]]

/-- The default value of a property of the nameless class is taken for a setting, though it stands
in an assignment to another variable that holds no further assignment. -/
theorem not_forms_agree_namelessClass :
    (Php.parse? namelessClass).map (property "default").collector.collect =
      some ((property "default").collector.collect namelessClassTrees) ∧
    WrittenAtOnce "db" "default" [("hostname", .string "a")]
      [.assign ((Node.var "db").element "default") (.array namelessClassItems)] ∧
    (∃ value declaration, namelessClassTrees = [.assign (.var "o") value, declaration] ∧
      (∀ m ∈ value.preorder, ∀ target v, m ≠ .assign target v) ∧
      WrittenAsDefault "default" [("hostname", .string "a")] [declaration]) ∧
    (property "default").collector.collect namelessClassTrees ≠
      (group "db" "default").collector.collect
        [.assign ((Node.var "db").element "default") (.array namelessClassItems)] := by
  have hitems (shape : DatabaseShape) :
      shape.Lists [("hostname", .string "a")] namelessClassItems := .keep rfl .nil
  refine ⟨by decide +kernel, ⟨_, hitems _, .keep rfl .nil⟩, ⟨_, _, rfl, ?_, ?_⟩, by decide⟩
  · simp [Node.preorder, Node.preorderOption, Node.preorderList, Node.preorderItems,
      Node.preorderElements]
  · exact ⟨_, _, _, _, _, _, hitems _, .keep rfl .nil, .keep rfl .nil, .keep rfl .nil⟩

end DatabaseShape

end Resettle
