import Stencil.Proofs.Markup.Token
import Stencil.Proofs.Value.Hereditary

/-!
# Tame values

A value is tame if no markup is given ready-made anywhere in it, neither as raw markup nor as the
markup inside an element, and its elements and their attributes have names that are made of the
letters of names. What its texts say does not matter. Components and render functions are tame if
their bodies name the tags and attributes they make, and everything in their scopes is tame.

Nothing that is reached from tame values is not tame: neither by looking up a path (`IsTame.lookup`),
nor by reading items (`IsTame.iterate`), nor by calling a component, which is the main statement
(`isTame_call`): **tame components called with tame properties return tame trees.**

Work that draws from generators depends on what has been drawn before. What is said about its
results here holds whatever has been drawn (`MayReturn`).
-/

namespace Stencil

open Markup Template

/-! ### Results of work -/

/-- A result that work has in some run. -/
def MayReturn {α : Type} (x : Pass α) (a : α) : Prop :=
  ∃ session session', x session = .ok (a, session')

section MayReturn

variable {α β : Type} {x : Pass α} {f : α → Pass β} {a : α} {b : β}

theorem eq_of_mayReturn_pure {a' : α} (h : MayReturn (pure a) a') : a' = a := by
  obtain ⟨session, session', h⟩ := h
  exact (congrArg Prod.fst (Except.ok.inj h)).symm

/-- A run of work in two steps is a run of each of them. -/
theorem exists_of_bind {session session' : Session} (h : (x >>= f) session = .ok (b, session')) :
    ∃ a middle, x session = .ok (a, middle) ∧ f a middle = .ok (b, session') := by
  cases hx : x session with
  | error failure =>
    simp only [bind, StateT.bind, hx, Except.bind] at h
    cases h
  | ok found =>
    obtain ⟨a, middle⟩ := found
    simp only [bind, StateT.bind, hx, Except.bind] at h
    exact ⟨a, middle, rfl, h⟩

/-- A result of work in two steps is one of the second step, for one of the first. -/
theorem exists_of_mayReturn_bind (h : MayReturn (x >>= f) b) :
    ∃ a, MayReturn x a ∧ MayReturn (f a) b := by
  obtain ⟨session, session', h⟩ := h
  obtain ⟨a, middle, hx, hf⟩ := exists_of_bind h
  exact ⟨a, ⟨session, middle, hx⟩, middle, session', hf⟩

theorem not_mayReturn_throw {failure : Failure} : ¬ MayReturn (throw failure : Pass α) a := by
  rintro ⟨session, session', h⟩
  cases h

/-- An outcome that is given is the only result. -/
theorem mayReturn_liftM {y : Except Failure α} : MayReturn (liftM y : Pass α) a ↔ y = .ok a := by
  constructor
  · rintro ⟨session, session', h⟩
    cases y with
    | error failure => cases h
    | ok a' => exact congrArg Except.ok (congrArg Prod.fst (Except.ok.inj h))
  · rintro rfl
    exact ⟨{}, {}, rfl⟩

end MayReturn

/-! ### Tame bodies and values -/

/-- An element in a body whose tag and attributes are named in the body itself. -/
def Body.NamesTag : (type props : Body) → Prop
  | .fragmentType, _ => True
  | .closure .., _ => True
  | .str tag, .null => ∀ c ∈ tag.toList, isNameLetter c = true
  | .str tag, .map entries =>
    (∀ c ∈ tag.toList, isNameLetter c = true) ∧
      ∀ entry ∈ entries, ∃ property, entry.1 = .str property ∧ IsPlainProperty property
  | _, _ => False

/-- **Tame bodies** make no markup ready-made, and elements with plain names only. -/
inductive Body.IsTame : Body → Prop
  | null : IsTame .null
  | bool (b : Bool) : IsTame (.bool b)
  | int (i : Int) : IsTame (.int i)
  | float (x : Float) : IsTame (.float x)
  | str (s : String) : IsTame (.str s)
  | bytes (s : String) : IsTame (.bytes s)
  | absent : IsTame .absent
  | fragmentType : IsTame .fragmentType
  | list (items : List Body) (isTame : ∀ b ∈ items, IsTame b) : IsTame (.list items)
  | tuple (items : List Body) (isTame : ∀ b ∈ items, IsTame b) : IsTame (.tuple items)
  | generator (items : List Body) (isTame : ∀ b ∈ items, IsTame b) : IsTame (.generator items)
  | map (entries : List (Body × Body)) (keys : ∀ entry ∈ entries, IsTame entry.1)
      (values : ∀ entry ∈ entries, IsTame entry.2) : IsTame (.map entries)
  | object (attributes : List (String × Body)) (isTame : ∀ entry ∈ attributes, IsTame entry.2)
      (unmarked : ∀ entry ∈ attributes, entry.1 ≠ "__element__") : IsTame (.object attributes)
  | element (type props : Body) (children : List Body) (names : NamesTag type props)
      (isTameType : IsTame type) (isTameProps : IsTame props) (isTame : ∀ b ∈ children, IsTame b) :
      IsTame (.element type props children)
  | fragment (children : List Body) (isTame : ∀ b ∈ children, IsTame b) :
      IsTame (.fragment children)
  | ifThen (condition : Body) (children : List Body) (isTameCondition : IsTame condition)
      (isTame : ∀ b ∈ children, IsTame b) : IsTame (.ifThen condition children)
  | otherwise (children : List Body) (isTame : ∀ b ∈ children, IsTame b) :
      IsTame (.otherwise children)
  | each (array : Body) (children : List Body) (itemVar : Body) (isTameArray : IsTame array)
      (isTame : ∀ b ∈ children, IsTame b) (isTameItemVar : IsTame itemVar) :
      IsTame (.each array children itemVar)
  | val (name value : Body) (isTameName : IsTame name) (isTameValue : IsTame value) :
      IsTame (.val name value)
  | provider (data : Body) (children : List Body) (isTameData : IsTame data)
      (isTame : ∀ b ∈ children, IsTame b) : IsTame (.provider data children)
  | closure (name : String) (body samples : Body) (traits : List (String × Body))
      (isTameBody : IsTame body) (isTameSamples : IsTame samples)
      (isTame : ∀ entry ∈ traits, IsTame entry.2) : IsTame (.closure name body samples traits)
  | ref (name : String) (path : Path) : IsTame (.ref name path)
  | concat (items : List Body) (isTame : ∀ b ∈ items, IsTame b) : IsTame (.concat items)
  | whenBuilding (yes no : Body) (isTameYes : IsTame yes) (isTameNo : IsTame no) :
      IsTame (.whenBuilding yes no)
  | fail (kind text : String) : IsTame (.fail kind text)

/-- **Tame values** hold no markup ready-made, and elements with plain names only. -/
inductive Value.IsTame : Value → Prop
  | null : IsTame .null
  | bool (b : Bool) : IsTame (.bool b)
  | int (i : Int) : IsTame (.int i)
  | float (x : Float) : IsTame (.float x)
  | str (s : String) : IsTame (.str s)
  | bytes (s : String) : IsTame (.bytes s)
  | absent : IsTame .absent
  | fragmentType : IsTame .fragmentType
  | helper (kind : Helper) : IsTame (.helper kind)
  | date (d : Date) : IsTame (.date d)
  | moment (m : Moment) : IsTame (.moment m)
  | list (items : List Value) (isTame : ∀ v ∈ items, IsTame v) : IsTame (.list items)
  | tuple (items : List Value) (isTame : ∀ v ∈ items, IsTame v) : IsTame (.tuple items)
  | generator (id : ℕ) (items : List Value) (isTame : ∀ v ∈ items, IsTame v) :
      IsTame (.generator id items)
  | set (items : List Value) (isTame : ∀ v ∈ items, IsTame v) : IsTame (.set items)
  | map (entries : Mapping) (isTame : ∀ entry ∈ entries, IsTame entry.1)
      (isTameValue : ∀ entry ∈ entries, IsTame entry.2) : IsTame (.map entries)
  | object (attributes : List (String × Value)) (isTame : ∀ entry ∈ attributes, IsTame entry.2)
      (unmarked : marksElement attributes = false) : IsTame (.object attributes)
  | element (type : Value) (props : Mapping) (children : List Value)
      (names : ∀ tag, type = .str tag → (∀ c ∈ tag.toList, isNameLetter c = true) ∧ ArePlain props)
      (isTameType : IsTame type) (isTameKey : ∀ entry ∈ props, IsTame entry.1)
      (isTameValue : ∀ entry ∈ props, IsTame entry.2) (isTame : ∀ v ∈ children, IsTame v) :
      IsTame (.element type props children)
  | closure (name : String) (scope : Scope) (body : Body) (traits : List (String × Value))
      (isTameScope : ∀ entry ∈ scope, IsTame entry.2) (isTameBody : body.IsTame)
      (isTame : ∀ entry ∈ traits, IsTame entry.2) : IsTame (.closure name scope body traits)

/-- Mappings of tame keys to tame values. -/
def Mapping.IsTame (m : Mapping) : Prop := ∀ entry ∈ m, entry.1.IsTame ∧ entry.2.IsTame

@[simp] theorem Value.isTame_map {entries : Mapping} :
    (Value.map entries).IsTame ↔ entries.IsTame := by
  constructor
  · intro h
    cases h with
    | map _ isTame isTameValue =>
      exact fun entry hentry => ⟨isTame entry hentry, isTameValue entry hentry⟩
  · exact fun h => .map entries (fun entry hentry => (h entry hentry).1)
      fun entry hentry => (h entry hentry).2

attribute [simp] Value.IsTame.null Value.IsTame.bool Value.IsTame.int Value.IsTame.str

@[simp] theorem Value.isTame_list {items : List Value} :
    (Value.list items).IsTame ↔ ∀ v ∈ items, v.IsTame := by
  constructor
  · intro h
    cases h with
    | list _ isTame => exact isTame
  · exact .list items

/-- Tame values hand down that they are tame. -/
theorem Value.hereditary_isTame : Value.Hereditary Value.IsTame where
  null := .null
  absent := .absent
  str := .str
  int := .int
  tuple := .tuple _
  map := Value.isTame_map.mpr
  of_list := Value.isTame_list.mp
  of_tuple h := by
    cases h with
    | tuple _ isTame => exact isTame
  of_set h := by
    cases h with
    | set _ isTame => exact isTame
  of_generator h := by
    cases h with
    | generator _ _ isTame => exact isTame
  of_map := Value.isTame_map.mp
  of_object h := by
    cases h with
    | object _ isTame => exact isTame
  of_element h := by
    cases h with
    | element _ _ _ _ isTameType isTameKey isTameValue isTame =>
      exact ⟨isTameType, fun entry hentry => ⟨isTameKey entry hentry, isTameValue entry hentry⟩, isTame⟩
  of_closure h := by
    cases h with
    | closure _ _ _ _ isTameScope _ isTame => exact ⟨isTameScope, isTame⟩

/-! ### Mappings -/

namespace Mapping

variable {m : Mapping} {key v : Value}

namespace IsTame

/-- What is found by a name in tame properties is tame. -/
theorem getD (h : m.IsTame) (name : String) : (m.getD name).IsTame := Value.hereditary_isTame.getD h name

/-- A tame value at a tame key keeps a mapping tame. -/
theorem put (h : m.IsTame) (hkey : key.IsTame) (hv : v.IsTame) : (m.put key v).IsTame :=
  Every.put h hkey hv

theorem set (h : m.IsTame) (name : String) (hv : v.IsTame) : (m.set name v).IsTame :=
  h.put (.str name) hv

theorem erase (h : m.IsTame) (name : String) : (m.erase name).IsTame := Every.erase h name

end IsTame

end Mapping

/-! ### Paths -/

namespace Value.IsTame

variable {v : Value}

/-- The items of a tame value are tame. -/
theorem items (h : v.IsTame) {items : List Value} (hitems : v.items? = some items) :
    ∀ w ∈ items, w.IsTame := hereditary_isTame.items h hitems

/-- **Paths.** Looking up a path leads from tame values to tame values only. -/
theorem lookup (h : v.IsTame) {path : Text} {w : Value} (hw : v.lookup path = .ok w) :
    w.IsTame := hereditary_isTame.lookup h hw

/-- Steps that are given as values lead from tame values to tame values only. -/
theorem walk (h : v.IsTame) {steps : List Value} {w : Value} (hw : v.walk steps = .ok w) :
    w.IsTame := hereditary_isTame.walk h hw

/-- A variable's path leads from tame values to tame values only. -/
theorem select (h : v.IsTame) (p : Path) : (v.select p).IsTame := hereditary_isTame.select h p

/-! ### Reading items -/

/-- What a generator has left are items of it. -/
private theorem mem_of_drawRest {id position : ℕ} {items drawn : List Value}
    (h : MayReturn (Element.drawRest id position items) drawn) : drawn.Sublist items := by
  induction items generalizing position drawn with
  | nil => rw [eq_of_mayReturn_pure h]
  | cons w rest ih =>
    rw [Element.drawRest] at h
    obtain ⟨isLeft, -, h⟩ := exists_of_mayReturn_bind h
    obtain ⟨more, hmore, h⟩ := exists_of_mayReturn_bind h
    rw [eq_of_mayReturn_pure h]
    cases isLeft with
    | true => exact (ih hmore).cons_cons w
    | false => exact (ih hmore).cons w

/-- The items of tame values are tame. -/
theorem iterate (h : v.IsTame) {items : List Value} (hitems : MayReturn (Element.iterate v) items) :
    ∀ w ∈ items, w.IsTame := by
  unfold Element.iterate at hitems
  split at hitems
  · next id own =>
    have htame := hereditary_isTame.of_generator h
    exact fun w hw => htame w ((mem_of_drawRest hitems).subset hw)
  · exact hereditary_isTame.parts h (mayReturn_liftM.mp hitems)

end Value.IsTame

namespace Element

variable {v : Value}

/-- An element of a plain tag with plain properties is tame if everything in it is. -/
theorem isTame_of_isPlain {tag : String} {props : Mapping} {children : List Value}
    (htag : ∀ c ∈ tag.toList, isNameLetter c = true) (hplain : ArePlain props)
    (hprops : props.IsTame) (hchildren : ∀ v ∈ children, v.IsTame) :
    (Value.element (.str tag) props children).IsTame := by
  refine .element _ _ _ (fun own hown => ?_) (.str tag)
    (fun entry hentry => (hprops entry hentry).1) (fun entry hentry => (hprops entry hentry).2)
    hchildren
  obtain rfl := Value.str.inj hown
  exact ⟨htag, hplain⟩

/-- An element of another type than a tag is tame if everything in it is. -/
theorem isTame_of_untagged {type : Value} {props : Mapping} {children : List Value}
    (htag : ∀ tag, type ≠ .str tag) (htype : type.IsTame) (hprops : props.IsTame)
    (hchildren : ∀ v ∈ children, v.IsTame) : (Value.element type props children).IsTame :=
  .element _ _ _ (fun tag he => absurd he (htag tag)) htype
    (fun entry hentry => (hprops entry hentry).1) (fun entry hentry => (hprops entry hentry).2)
    hchildren

/-- A construct of the template language is tame if everything in it is. -/
theorem isTame_helper (kind : Helper) {props : Mapping} {children : List Value} (hprops : props.IsTame)
    (hchildren : ∀ v ∈ children, v.IsTame) : (Value.element (.helper kind) props children).IsTame :=
  isTame_of_untagged (fun _ h => by cases h) (.helper kind) hprops hchildren

private theorem mayReturn_iterate_of_pairAt {position : ℕ} {item : Value} {pair : Value × Value}
    (h : MayReturn (pairAt position item) pair) : MayReturn (iterate item) [pair.1, pair.2] := by
  obtain ⟨session, session', h⟩ := h
  unfold pairAt at h
  split at h
  · next key value middle hiterate =>
    obtain rfl : (key, value) = pair := congrArg Prod.fst (Except.ok.inj h)
    exact ⟨session, middle, hiterate⟩
  · cases h
  · cases h

/-- Pairs of tame values that are put into a mapping keep it tame. -/
private theorem isTame_putPairs {items : List Value} (hitems : ∀ item ∈ items, item.IsTame)
    {m m' : Mapping} (hm : m.IsTame) {position : ℕ}
    (h : MayReturn (putPairs m position items) m') : m'.IsTame := by
  induction items generalizing m position with
  | nil => rwa [eq_of_mayReturn_pure h]
  | cons item rest ih =>
    obtain ⟨hitem, hrest⟩ := List.forall_mem_cons.mp hitems
    rw [putPairs] at h
    obtain ⟨pair, hpair, h⟩ := exists_of_mayReturn_bind h
    obtain ⟨-, -, h⟩ := exists_of_mayReturn_bind h
    have hboth := hitem.iterate (mayReturn_iterate_of_pairAt hpair)
    exact ih hrest (hm.put (hboth pair.1 (by simp)) (hboth pair.2 (by simp))) h

/-- A dictionary of tame values is tame. -/
theorem isTame_dictionary (hv : v.IsTame) {m : Mapping} (h : MayReturn (dictionary v) m) :
    m.IsTame := by
  unfold dictionary at h
  split at h
  · rw [eq_of_mayReturn_pure h]
    exact Value.isTame_map.mp hv
  · obtain ⟨items, hitems, h⟩ := exists_of_mayReturn_bind h
    exact isTame_putPairs (hv.iterate hitems) (List.forall_mem_nil _) h

theorem isTame_properties (hv : v.IsTame) {m : Mapping} (h : MayReturn (properties v) m) :
    m.IsTame := by
  unfold properties at h
  split at h
  · exact isTame_dictionary hv h
  · rw [eq_of_mayReturn_pure h]
    exact List.forall_mem_nil _

/-- An element of tame parts with plain names is tame. -/
theorem isTame_make {type : Value} {props : Mapping} {children : List Value}
    (names : ∀ tag, type = .str tag → (∀ c ∈ tag.toList, isNameLetter c = true) ∧ ArePlain props)
    (htype : type.IsTame) (hprops : props.IsTame) (hchildren : ∀ v ∈ children, v.IsTame) :
    (make type props children).IsTame := by
  have herase := hprops.erase "children"
  refine .element _ _ _ (fun tag htag => ?_) htype (fun entry hentry => (herase entry hentry).1)
    (fun entry hentry => (herase entry hentry).2) ?_
  · obtain ⟨hname, hplain⟩ := names tag htag
    exact ⟨hname, fun entry hentry => hplain entry ((Mapping.erase_sublist _ _).subset hentry)⟩
  · split
    · -- without children of its own the element has those of its properties
      exact Value.hereditary_isTame.propertyChildren (hprops.getD "children")
    · exact hchildren

end Element

/-! ### Bodies -/

namespace Body

variable {isBuilding : Bool} {scope : Scope}

/-- What is made of some bodies is made of one of them each. -/
private theorem exists_of_evalAll {items : List Body} {values : List Value}
    (h : MayReturn (evalAll isBuilding scope items) values) :
    ∀ v ∈ values, ∃ b ∈ items, MayReturn (b.eval isBuilding scope) v := by
  induction items generalizing values with
  | nil =>
    rw [evalAll] at h
    rw [eq_of_mayReturn_pure h]
    exact List.forall_mem_nil _
  | cons b rest ih =>
    rw [evalAll] at h
    obtain ⟨v, hv, h⟩ := exists_of_mayReturn_bind h
    obtain ⟨more, hmore, h⟩ := exists_of_mayReturn_bind h
    rw [eq_of_mayReturn_pure h]
    refine List.forall_mem_cons.mpr ⟨⟨b, by simp, hv⟩, fun w hw => ?_⟩
    obtain ⟨c, hc, hcw⟩ := ih hmore w hw
    exact ⟨c, List.mem_cons_of_mem b hc, hcw⟩

private theorem exists_of_evalEntries {entries : List (Body × Body)} {values : List (Value × Value)}
    (h : MayReturn (evalEntries isBuilding scope entries) values) :
    ∀ v ∈ values, ∃ entry ∈ entries, MayReturn (entry.1.eval isBuilding scope) v.1 ∧
      MayReturn (entry.2.eval isBuilding scope) v.2 := by
  induction entries generalizing values with
  | nil =>
    rw [evalEntries] at h
    rw [eq_of_mayReturn_pure h]
    exact List.forall_mem_nil _
  | cons entry rest ih =>
    rw [evalEntries] at h
    obtain ⟨k, hk, h⟩ := exists_of_mayReturn_bind h
    obtain ⟨v, hv, h⟩ := exists_of_mayReturn_bind h
    obtain ⟨-, -, h⟩ := exists_of_mayReturn_bind h
    obtain ⟨more, hmore, h⟩ := exists_of_mayReturn_bind h
    rw [eq_of_mayReturn_pure h]
    refine List.forall_mem_cons.mpr ⟨⟨entry, by simp, hk, hv⟩, fun w hw => ?_⟩
    obtain ⟨other, hother, hboth⟩ := ih hmore w hw
    exact ⟨other, List.mem_cons_of_mem entry hother, hboth⟩

private theorem exists_of_evalNamed {attributes : List (String × Body)}
    {values : List (String × Value)}
    (h : MayReturn (evalNamed isBuilding scope attributes) values) :
    ∀ v ∈ values, ∃ entry ∈ attributes, entry.1 = v.1 ∧
      MayReturn (entry.2.eval isBuilding scope) v.2 := by
  induction attributes generalizing values with
  | nil =>
    rw [evalNamed] at h
    rw [eq_of_mayReturn_pure h]
    exact List.forall_mem_nil _
  | cons entry rest ih =>
    rw [evalNamed] at h
    obtain ⟨v, hv, h⟩ := exists_of_mayReturn_bind h
    obtain ⟨more, hmore, h⟩ := exists_of_mayReturn_bind h
    rw [eq_of_mayReturn_pure h]
    refine List.forall_mem_cons.mpr ⟨⟨entry, by simp, rfl, hv⟩, fun w hw => ?_⟩
    obtain ⟨other, hother, hboth⟩ := ih hmore w hw
    exact ⟨other, List.mem_cons_of_mem entry hother, hboth⟩

private theorem isTame_samplesTrait {samples : Value} (h : samples.IsTame)
    {traits : List (String × Value)} (ht : MayReturn (samplesTrait samples) traits) :
    ∀ entry ∈ traits, entry.2.IsTame := by
  unfold samplesTrait at ht
  split at ht
  · rw [eq_of_mayReturn_pure ht]
    exact List.forall_mem_nil _
  · obtain ⟨m, hm, ht⟩ := exists_of_mayReturn_bind ht
    rw [eq_of_mayReturn_pure ht]
    simpa using Element.isTame_dictionary h hm

/-- The properties that an element names are plain. -/
private theorem plain_of_namesTag {type props : Body} (h : NamesTag type props) {t p : Value}
    {m : Mapping} (ht : MayReturn (type.eval isBuilding scope) t)
    (hp : MayReturn (props.eval isBuilding scope) p) (hm : MayReturn (Element.properties p) m)
    {tag : String} (htag : t = .str tag) :
    (∀ c ∈ tag.toList, isNameLetter c = true) ∧ ArePlain m := by
  -- the tag is a text in the body, which is evaluated to itself
  have own : ∀ {s : String}, type = .str s → s = tag := by
    rintro s rfl
    rw [eval] at ht
    exact Value.str.inj ((eq_of_mayReturn_pure ht).symm.trans htag)
  unfold NamesTag at h
  split at h
  · rw [eval] at ht
    cases htag.symm.trans (eq_of_mayReturn_pure ht)
  · rw [eval] at ht
    obtain ⟨_, -, ht⟩ := exists_of_mayReturn_bind ht
    obtain ⟨_, -, ht⟩ := exists_of_mayReturn_bind ht
    obtain ⟨_, -, ht⟩ := exists_of_mayReturn_bind ht
    cases htag.symm.trans (eq_of_mayReturn_pure ht)
  · obtain rfl := own rfl
    rw [eval] at hp
    rw [eq_of_mayReturn_pure hp] at hm
    rw [eq_of_mayReturn_pure hm]
    exact ⟨h, List.forall_mem_nil _⟩
  · next entries =>
    obtain rfl := own rfl
    rw [eval] at hp
    obtain ⟨values, hvalues, hp⟩ := exists_of_mayReturn_bind hp
    rw [eq_of_mayReturn_pure hp] at hm
    refine ⟨h.1, ?_⟩
    unfold Element.properties at hm
    split at hm
    · rw [eq_of_mayReturn_pure hm]
      have hall : ∀ entry ∈ values, (∀ name ∈ entry.1.text?, IsPlainProperty name) ∧ True := by
        intro entry hentry
        obtain ⟨source, hsource, hkey, -⟩ := exists_of_evalEntries hvalues entry hentry
        obtain ⟨property, hname, hplain⟩ := h.2 source hsource
        rw [hname, eval] at hkey
        rw [eq_of_mayReturn_pure hkey]
        simpa [Value.text?] using hplain
      exact fun entry hentry => (Mapping.forall_ofEntries
        (p := fun k => ∀ name ∈ k.text?, IsPlainProperty name) (q := fun _ => True) hall entry
        hentry).1
    · rw [eq_of_mayReturn_pure hm]
      exact List.forall_mem_nil _
  · exact absurd h id

/-- An object of attributes that do not mark it as an element. -/
private theorem isTame_object {values : List (String × Value)}
    (h : ∀ entry ∈ values, entry.1 ≠ "__element__" ∧ entry.2.IsTame) :
    (Value.object (attributesOf values)).IsTame := by
  have hall := forall_attributesOf (p := (· ≠ "__element__")) h
  refine .object _ (fun entry hentry => (hall entry hentry).2) ?_
  have hnone : (attributesOf values).lookup "__element__" = none :=
    List.lookup_eq_none_iff.mpr fun entry hentry => bne_iff_ne.mpr (hall entry hentry).1.symm
  rw [Value.marksElement, hnone]
  rfl

/-- **Bodies.** Tame bodies make tame values of what is tame in their scope. -/
theorem isTame_eval {b : Body} (hb : b.IsTame) (hscope : ∀ entry ∈ scope, entry.2.IsTame)
    {v : Value} (h : MayReturn (b.eval isBuilding scope) v) : v.IsTame := by
  have all : ∀ {items : List Body} {values : List Value},
      (∀ b ∈ items, ∀ {v}, MayReturn (b.eval isBuilding scope) v → v.IsTame) →
      MayReturn (evalAll isBuilding scope items) values → ∀ v ∈ values, v.IsTame := by
    intro items values ih hvalues v hv
    obtain ⟨b, hb, hbv⟩ := exists_of_evalAll hvalues v hv
    exact ih b hb hbv
  induction hb generalizing v with
  | null | bool | int | float | str | bytes | absent | fragmentType =>
    rw [eval] at h
    rw [eq_of_mayReturn_pure h]
    constructor
  | list items _ ih =>
    rw [eval] at h
    obtain ⟨values, hvalues, h⟩ := exists_of_mayReturn_bind h
    rw [eq_of_mayReturn_pure h]
    exact .list _ (all ih hvalues)
  | tuple items _ ih =>
    rw [eval] at h
    obtain ⟨values, hvalues, h⟩ := exists_of_mayReturn_bind h
    rw [eq_of_mayReturn_pure h]
    exact .tuple _ (all ih hvalues)
  | generator items _ ih =>
    rw [eval] at h
    obtain ⟨values, hvalues, session, session', h⟩ := exists_of_mayReturn_bind h
    obtain rfl : Value.generator session.made values = v := congrArg Prod.fst (Except.ok.inj h)
    exact .generator _ _ (all ih hvalues)
  | map entries _ _ ihk ihv =>
    rw [eval] at h
    obtain ⟨values, hvalues, h⟩ := exists_of_mayReturn_bind h
    rw [eq_of_mayReturn_pure h]
    refine Value.isTame_map.mpr (Mapping.forall_ofEntries fun entry hentry => ?_)
    obtain ⟨own, hown, hkey, hvalue⟩ := exists_of_evalEntries hvalues entry hentry
    exact ⟨ihk own hown hkey, ihv own hown hvalue⟩
  | object attributes _ unmarked ih =>
    rw [eval] at h
    obtain ⟨values, hvalues, h⟩ := exists_of_mayReturn_bind h
    rw [eq_of_mayReturn_pure h]
    refine isTame_object fun entry hentry => ?_
    obtain ⟨own, hown, hname, hvalue⟩ := exists_of_evalNamed hvalues entry hentry
    exact ⟨hname ▸ unmarked own hown, ih own hown hvalue⟩
  | element type props children names _ _ _ iht ihp ih =>
    rw [eval] at h
    obtain ⟨values, hvalues, h⟩ := exists_of_mayReturn_bind h
    obtain ⟨t, ht, h⟩ := exists_of_mayReturn_bind h
    obtain ⟨p, hp, h⟩ := exists_of_mayReturn_bind h
    obtain ⟨m, hm, h⟩ := exists_of_mayReturn_bind h
    rw [eq_of_mayReturn_pure h]
    exact Element.isTame_make (fun tag htag => plain_of_namesTag names ht hp hm htag) (iht ht)
      (Element.isTame_properties (ihp hp) hm) (all ih hvalues)
  | fragment children _ ih =>
    rw [eval] at h
    obtain ⟨values, hvalues, h⟩ := exists_of_mayReturn_bind h
    rw [eq_of_mayReturn_pure h]
    exact Element.isTame_of_untagged (fun _ h => by cases h) .fragmentType (List.forall_mem_nil _)
      (all ih hvalues)
  | otherwise children _ ih =>
    rw [eval] at h
    obtain ⟨values, hvalues, h⟩ := exists_of_mayReturn_bind h
    rw [eq_of_mayReturn_pure h]
    exact Element.isTame_helper .otherwise (List.forall_mem_nil _) (all ih hvalues)
  | ifThen condition children _ _ ihc ih =>
    rw [eval] at h
    obtain ⟨values, hvalues, h⟩ := exists_of_mayReturn_bind h
    obtain ⟨c, hc, h⟩ := exists_of_mayReturn_bind h
    rw [eq_of_mayReturn_pure h]
    exact Element.isTame_helper .ifThen (List.forall_mem_singleton.mpr ⟨.str _, ihc hc⟩) (all ih hvalues)
  | each array children itemVar _ _ _ iha ih ihv =>
    rw [eval] at h
    obtain ⟨values, hvalues, h⟩ := exists_of_mayReturn_bind h
    obtain ⟨a, ha, h⟩ := exists_of_mayReturn_bind h
    obtain ⟨i, hi, h⟩ := exists_of_mayReturn_bind h
    rw [eq_of_mayReturn_pure h]
    refine Element.isTame_helper .each ?_ (all ih hvalues)
    exact List.forall_mem_cons.mpr
      ⟨⟨.str _, iha ha⟩, List.forall_mem_singleton.mpr ⟨.str _, ihv hi⟩⟩
  | val name value _ _ ihn ihv =>
    rw [eval] at h
    obtain ⟨n, hn, h⟩ := exists_of_mayReturn_bind h
    obtain ⟨w, hw, h⟩ := exists_of_mayReturn_bind h
    rw [eq_of_mayReturn_pure h]
    refine Element.isTame_helper .val ?_ (List.forall_mem_nil _)
    exact List.forall_mem_cons.mpr
      ⟨⟨.str _, ihn hn⟩, List.forall_mem_singleton.mpr ⟨.str _, ihv hw⟩⟩
  | provider data children _ _ ihd ih =>
    rw [eval] at h
    obtain ⟨values, hvalues, h⟩ := exists_of_mayReturn_bind h
    obtain ⟨d, hd, h⟩ := exists_of_mayReturn_bind h
    rw [eq_of_mayReturn_pure h]
    exact Element.isTame_helper .provider (List.forall_mem_singleton.mpr ⟨.str _, ihd hd⟩) (all ih hvalues)
  | closure name body samples traits isTameBody _ _ _ ihs ih =>
    rw [eval] at h
    obtain ⟨s, hs, h⟩ := exists_of_mayReturn_bind h
    obtain ⟨samples, hsamples, h⟩ := exists_of_mayReturn_bind h
    obtain ⟨named, hnamed, h⟩ := exists_of_mayReturn_bind h
    rw [eq_of_mayReturn_pure h]
    -- the scope is kept as it is, and the body is evaluated when the closure is called
    refine .closure _ _ _ _ hscope isTameBody fun entry hentry => ?_
    rcases List.mem_append.mp hentry with hentry | hentry
    · obtain ⟨own, hown, -, hvalue⟩ := exists_of_evalNamed hnamed entry hentry
      exact ih own hown hvalue
    · exact isTame_samplesTrait (ihs hs) hsamples entry hentry
  | ref name path =>
    rw [eval] at h
    rw [eq_of_mayReturn_pure h]
    refine Value.IsTame.select ?_ path
    cases hw : scope.lookup name with
    | none => exact .null
    | some w =>
      obtain ⟨before, after, rfl, -⟩ := List.lookup_eq_some_iff.mp hw
      exact hscope (name, w) (by simp)
  | concat items _ _ =>
    rw [eval] at h
    obtain ⟨values, -, h⟩ := exists_of_mayReturn_bind h
    rw [eq_of_mayReturn_pure h]
    exact .str _
  | whenBuilding yes no _ _ ihy ihn =>
    rw [eval] at h
    split at h
    · exact ihy h
    · exact ihn h
  | fail kind text =>
    rw [eval] at h
    exact absurd h not_mayReturn_throw

end Body

/-! ### Calls -/

namespace Component

variable {isBuilding : Bool} {component v : Value}

private theorem isTame_callWith (hcomponent : component.IsTame) {arguments : Scope}
    (harguments : ∀ entry ∈ arguments, entry.2.IsTame)
    (h : MayReturn (callWith isBuilding arguments component) v) : v.IsTame := by
  unfold callWith at h
  split at h
  · next name scope body traits =>
    cases hcomponent with
    | closure _ _ _ _ isTameScope isTameBody =>
      refine Body.isTame_eval isTameBody (fun entry hentry => ?_) h
      exact (List.mem_append.mp hentry).elim (harguments entry) (isTameScope entry)
  · exact absurd h not_mayReturn_throw

/-- **Calls.** Tame components called with tame properties return tame trees. -/
theorem isTame_call (hcomponent : component.IsTame) {props : Mapping} (hprops : props.IsTame)
    (h : MayReturn (call isBuilding component props) v) : v.IsTame := by
  unfold call at h
  split at h
  · next arguments hsome =>
    have hprops' : (Value.map props).IsTame := Value.isTame_map.mpr hprops
    exact isTame_callWith hcomponent
      (List.forall_mem_cons.mpr ⟨hprops', forall_arguments hprops hsome⟩) h
  · exact absurd h not_mayReturn_throw

/-- Tame render functions called with tame items return tame trees. -/
theorem isTame_callItem (hcomponent : component.IsTame) {item : Value} (hitem : item.IsTame)
    {index : ℕ} (h : MayReturn (callItem isBuilding component item index) v) : v.IsTame := by
  refine isTame_callWith hcomponent ?_ h
  exact List.forall_mem_cons.mpr ⟨hitem, List.forall_mem_singleton.mpr (.int _)⟩

/-- Tame properties with tame children are tame. -/
theorem isTame_withChildren {props : Mapping} (hprops : props.IsTame) {children : List Value}
    (hchildren : ∀ v ∈ children, v.IsTame) : (withChildren props children).IsTame := by
  unfold withChildren
  split
  · exact hprops
  · exact hprops.set _ (hchildren _ (by simp))
  · exact hprops.set _ (.list _ hchildren)

end Component

end Stencil
