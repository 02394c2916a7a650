import Mathlib.Data.List.Basic
import Stencil.Proofs.Value.Hereditary

/-!
# Work beside generators that it does not read

Two runs correspond if they fail with the same failure or have related results, though they start from
sessions that differ in how far some generators have been read (`Corresponds`). The first run may read
some of these itself, as long as nobody has read them before. What may be done one after the other
corresponds step by step (`Corresponds.bind`).

Work is framed if it corresponds to itself and reads none of these generators (`Framed`). The main
statement is `framed_call`: **calling a component without these generators is framed, and what it returns
is without them, too**, since a generator that is made meanwhile is another one.
-/

namespace Stencil

/-! ### Values without some generators -/

/-- **Values without some generators**, neither in them nor in what functions in them may use. -/
inductive Value.IsWithout (ids : List ℕ) : Value → Prop
  | null : IsWithout ids .null
  | bool (b : Bool) : IsWithout ids (.bool b)
  | int (i : Int) : IsWithout ids (.int i)
  | float (x : Float) : IsWithout ids (.float x)
  | str (s : String) : IsWithout ids (.str s)
  | raw (s : String) : IsWithout ids (.raw s)
  | bytes (s : String) : IsWithout ids (.bytes s)
  | absent : IsWithout ids .absent
  | fragmentType : IsWithout ids .fragmentType
  | helper (kind : Helper) : IsWithout ids (.helper kind)
  | date (d : Date) : IsWithout ids (.date d)
  | moment (m : Moment) : IsWithout ids (.moment m)
  | list (items : List Value) (each : ∀ v ∈ items, IsWithout ids v) : IsWithout ids (.list items)
  | tuple (items : List Value) (each : ∀ v ∈ items, IsWithout ids v) : IsWithout ids (.tuple items)
  | set (items : List Value) (each : ∀ v ∈ items, IsWithout ids v) : IsWithout ids (.set items)
  | generator (id : ℕ) (items : List Value) (other : id ∉ ids) (each : ∀ v ∈ items, IsWithout ids v) :
      IsWithout ids (.generator id items)
  | map (entries : Mapping) (keys : ∀ entry ∈ entries, IsWithout ids entry.1)
      (values : ∀ entry ∈ entries, IsWithout ids entry.2) : IsWithout ids (.map entries)
  | object (attributes : List (String × Value)) (each : ∀ entry ∈ attributes, IsWithout ids entry.2) :
      IsWithout ids (.object attributes)
  | element (type : Value) (props : Mapping) (children : List Value) (typeIs : IsWithout ids type)
      (keys : ∀ entry ∈ props, IsWithout ids entry.1) (values : ∀ entry ∈ props, IsWithout ids entry.2)
      (each : ∀ v ∈ children, IsWithout ids v) : IsWithout ids (.element type props children)
  | closure (name : String) (scope : Scope) (body : Body) (traits : List (String × Value))
      (bound : ∀ entry ∈ scope, IsWithout ids entry.2)
      (each : ∀ entry ∈ traits, IsWithout ids entry.2) :
      IsWithout ids (.closure name scope body traits)

/-- Values without some generators hand down that they are. -/
theorem Value.hereditary_isWithout (ids : List ℕ) : Value.Hereditary (Value.IsWithout ids) where
  null := .null
  absent := .absent
  str := .str
  int := .int
  tuple := .tuple _
  map h := .map _ (fun entry hentry => (h entry hentry).1) fun entry hentry => (h entry hentry).2
  of_list h := by
    cases h with
    | list _ each => exact each
  of_tuple h := by
    cases h with
    | tuple _ each => exact each
  of_set h := by
    cases h with
    | set _ each => exact each
  of_generator h := by
    cases h with
    | generator _ _ _ each => exact each
  of_map h := by
    cases h with
    | map _ keys values => exact fun entry hentry => ⟨keys entry hentry, values entry hentry⟩
  of_object h := by
    cases h with
    | object _ each => exact each
  of_element h := by
    cases h with
    | element _ _ _ typeIs keys values each =>
      exact ⟨typeIs, fun entry hentry => ⟨keys entry hentry, values entry hentry⟩, each⟩
  of_closure h := by
    cases h with
    | closure _ _ _ _ bound each => exact ⟨bound, each⟩

/-- Mappings without some generators. -/
abbrev Mapping.IsWithout (ids : List ℕ) (m : Mapping) : Prop := m.Every (Value.IsWithout ids)

/-! ### Sessions -/

/-- Sessions that differ in nothing but how far some generators have been read, which are made already. -/
structure Session.Agrees (ids : List ℕ) (s t : Session) : Prop where
  made : s.made = t.made
  isMade : ∀ id ∈ ids, id < s.made
  count : ∀ id, id ∉ ids → s.count id = t.count id

namespace Session

variable {ids : List ℕ} {s t u : Session}

/-- Sessions agree in either direction. -/
theorem Agrees.symm (h : s.Agrees ids t) : t.Agrees ids s :=
  ⟨h.made.symm, fun id hid => h.made ▸ h.isMade id hid, fun id hid => (h.count id hid).symm⟩

/-- Sessions that agree with the same one agree. -/
theorem Agrees.trans (h : s.Agrees ids t) (h' : t.Agrees ids u) : s.Agrees ids u :=
  ⟨h.made.trans h'.made, h.isMade, fun id hid => (h.count id hid).trans (h'.count id hid)⟩

/-- Drawing from one generator leaves the others where they are. -/
theorem count_advance_of_ne {id other : ℕ} (h : other ≠ id) (position : ℕ) :
    (s.advance id position).count other = s.count other := by
  have hne : (other == id) = false := beq_false_of_ne h
  have hfilter : ∀ drawn : List (ℕ × ℕ),
      (drawn.filter fun entry => entry.1 != id).lookup other = drawn.lookup other := by
    intro drawn
    induction drawn with
    | nil => rfl
    | cons entry rest ih =>
      obtain ⟨own, n⟩ := entry
      by_cases hown : own = id
      · have hother : (other == own) = false := beq_false_of_ne (hown ▸ h)
        rw [List.filter_cons_of_neg (by simp [hown]), ih, List.lookup_cons, hother]
      · rw [List.filter_cons_of_pos (by simp [hown]), List.lookup_cons, List.lookup_cons, ih]
  rw [count, advance, List.lookup_cons, hne]
  dsimp only
  rw [hfilter, count]

end Session

/-! ### Runs that correspond -/

section Corresponds

variable {α β γ δ : Type} {ids own own' : List ℕ}

/-- Outcomes of two runs: the same failure, or related results in sessions that agree. The first run has
read no generators among some but its own. -/
inductive SameOutcome (ids own : List ℕ) (R : α → β → Prop) (s : Session) :
    Except Failure (α × Session) → Except Failure (β × Session) → Prop
  | ok {a : α} {b : β} {s' t' : Session} (related : R a b) (agrees : s'.Agrees ids t')
      (kept : ∀ id ∈ ids, id ∉ own → s'.count id = s.count id) :
      SameOutcome ids own R s (.ok (a, s')) (.ok (b, t'))
  | error (failure : Failure) : SameOutcome ids own R s (.error failure) (.error failure)

/-- Work whose runs correspond, from sessions that agree, if nobody has read the first one's own generators. -/
def Corresponds (ids own : List ℕ) (R : α → β → Prop) (x : Pass α) (y : Pass β) : Prop :=
  ∀ s t : Session, s.Agrees ids t → (∀ id ∈ own, s.count id = 0) → SameOutcome ids own R s (x s) (y t)

variable {R : α → β → Prop} {Q : γ → δ → Prop} {x : Pass α} {y : Pass β}

namespace Corresponds

/-- Related results correspond. -/
theorem pure {a : α} {b : β} (h : R a b) : Corresponds ids own R (pure a) (pure b) :=
  fun _ _ hagrees _ => .ok h hagrees fun _ _ _ => rfl

/-- The same failures correspond. -/
theorem throw (failure : Failure) : Corresponds ids own R (throw failure) (throw failure) :=
  fun _ _ _ _ => .error failure

/-- Outcomes that fail alike or are related correspond. -/
theorem liftM {e : Except Failure α} {e' : Except Failure β}
    (h : (∃ a b, e = .ok a ∧ e' = .ok b ∧ R a b) ∨
      ∃ failure, e = .error failure ∧ e' = .error failure) :
    Corresponds ids own R (liftM e) (liftM e') := by
  rcases h with ⟨a, b, rfl, rfl, hab⟩ | ⟨failure, rfl, rfl⟩
  · exact .pure hab
  · exact .throw failure

/-- **One after the other.** What follows corresponds if it has other generators of its own. -/
theorem bind {f : α → Pass γ} {g : β → Pass δ} (h : Corresponds ids own R x y)
    (hf : ∀ a b, R a b → Corresponds ids own' Q (f a) (g b)) (hdisjoint : own.Disjoint own')
    (hown : own' ⊆ ids) : Corresponds ids (own ++ own') Q (x >>= f) (y >>= g) := by
  intro s t hagrees hundrawn
  have hx := h s t hagrees fun id hid => hundrawn id (List.mem_append_left _ hid)
  simp only [Bind.bind, StateT.bind]
  generalize x s = xs, y t = yt at hx
  cases hx with
  | error failure => exact .error failure
  | @ok a b s' t' related agrees kept =>
    -- the first work has left the generators of the second one alone
    have hundrawn' : ∀ id ∈ own', s'.count id = 0 := fun id hid => by
      rw [kept id (hown hid) fun hmem => hdisjoint hmem hid]
      exact hundrawn id (List.mem_append_right _ hid)
    have hnext := hf a b related s' t' agrees hundrawn'
    dsimp only [Except.bind]
    generalize f a s' = fs, g b t' = gt at hnext
    cases hnext with
    | error failure => exact .error failure
    | ok related agrees kept' =>
      refine .ok related agrees fun id hid hnot => ?_
      rw [List.mem_append, not_or] at hnot
      rw [kept' id hid hnot.2, kept id hid hnot.1]

/-- What corresponds does so with weaker relations and more generators. -/
theorem mono {S : α → β → Prop} (h : Corresponds ids own R x y) (hR : ∀ a b, R a b → S a b)
    (hown : own ⊆ own') : Corresponds ids own' S x y := by
  intro s t hagrees hundrawn
  have hx := h s t hagrees fun id hid => hundrawn id (hown hid)
  generalize x s = xs, y t = yt at hx
  cases hx with
  | error failure => exact .error failure
  | ok related agrees kept =>
    exact .ok (hR _ _ related) agrees fun id hid hnot => kept id hid fun hmem => hnot (hown hmem)

end Corresponds

/-- Work that reads none of some generators, with results of a kind. -/
def Framed (ids : List ℕ) (p : α → Prop) (x : Pass α) : Prop :=
  Corresponds ids [] (fun a b => a = b ∧ p a) x x

namespace Framed

variable {p : α → Prop} {q : γ → Prop}

/-- A fine result is framed. -/
theorem pure {a : α} (h : p a) : Framed ids p (pure a) := Corresponds.pure ⟨rfl, h⟩

theorem throw (failure : Failure) : Framed ids p (throw failure : Pass α) := Corresponds.throw failure

theorem liftM {e : Except Failure α} (h : ∀ a, e = .ok a → p a) : Framed ids p (liftM e) := by
  refine Corresponds.liftM ?_
  cases e with
  | ok a => exact .inl ⟨a, a, rfl, rfl, rfl, h a rfl⟩
  | error failure => exact .inr ⟨failure, rfl, rfl⟩

/-- Framed work is framed one after the other. -/
theorem bind {f : α → Pass γ} (h : Framed ids p x) (hf : ∀ a, p a → Framed ids q (f a)) :
    Framed ids q (x >>= f) := by
  refine Corresponds.bind h ?_ (List.disjoint_nil_left []) (List.nil_subset _)
  rintro a b ⟨rfl, ha⟩
  exact hf a ha

end Framed

/-- Framed work corresponds to itself. -/
theorem Framed.corresponds {p : α → Prop} (h : Framed ids p x) : Corresponds ids own (· = ·) x x :=
  Corresponds.mono h (fun _ _ hab => hab.1) (List.nil_subset _)

/-- What follows work that is framed. -/
theorem Corresponds.after {p : α → Prop} {f : α → Pass γ} {g : α → Pass δ} (h : Framed ids p x)
    (hf : ∀ a, p a → Corresponds ids own Q (f a) (g a)) (hown : own ⊆ ids) :
    Corresponds ids own Q (x >>= f) (x >>= g) := by
  refine Corresponds.bind h ?_ (List.disjoint_nil_left own) hown
  rintro a b ⟨rfl, ha⟩
  exact hf a ha

/-- What the results are turned into. -/
theorem Corresponds.map {f : α → γ} {g : β → δ} (h : Corresponds ids own R x y)
    (hfg : ∀ a b, R a b → Q (f a) (g b)) :
    Corresponds ids own Q (x >>= fun a => Pure.pure (f a)) (y >>= fun b => Pure.pure (g b)) := by
  refine (h.bind (fun a b hab => .pure (hfg a b hab)) (List.disjoint_nil_right own)
    (List.nil_subset _)).mono (fun _ _ hab => hab) ?_
  rw [List.append_nil]
  exact List.Subset.refl _

/-- Lists that two pieces of work make, one behind the other. -/
theorem Corresponds.append {x next : Pass (List α)} {y next' : Pass (List β)}
    {R R' R'' : List α → List β → Prop} (h : Corresponds ids own R x y)
    (hnext : Corresponds ids own' R' next next') (hdisjoint : own.Disjoint own') (hown : own' ⊆ ids)
    (happend : ∀ a b a' b', R a b → R' a' b' → R'' (a ++ a') (b ++ b')) :
    Corresponds ids (own ++ own') R'' (do let here ← x; Pure.pure (here ++ (← next)))
      (do let here ← y; Pure.pure (here ++ (← next'))) :=
  h.bind (fun a b hab => hnext.map fun a' b' hab' => happend a b a' b' hab hab') hdisjoint hown

/-- What corresponds to the same work is framed if it has no generators of its own. -/
theorem Corresponds.framed {x : Pass α} {y : Pass α} (h : Corresponds ids [] (· = ·) x y) :
    Framed ids (fun _ => True) x := by
  intro s t hagrees _
  -- both sessions are compared with the second work in the first session
  have hs := h s s ⟨rfl, hagrees.isMade, fun _ _ => rfl⟩ (by simp)
  have ht := h t s hagrees.symm (by simp)
  generalize x s = xs, x t = xt, y s = ys at hs ht
  cases hs with
  | error failure =>
    cases ht with
    | error => exact .error failure
  | ok related agrees kept =>
    cases ht with
    | ok related' agrees' kept' =>
      exact .ok ⟨related.trans related'.symm, trivial⟩ (agrees.trans agrees'.symm) kept

end Corresponds

/-! ### Generators -/

section Generators

variable {ids : List ℕ}

/-- Other generators are read beside these. -/
theorem framed_drawItem {id : ℕ} (h : id ∉ ids) (position : ℕ) :
    Framed ids (fun _ => True) (drawItem id position) := by
  intro s t hagrees _
  rw [drawItem, drawItem, hagrees.count id h]
  split
  · refine .ok ⟨rfl, trivial⟩ ⟨hagrees.made, hagrees.isMade, fun other hother => ?_⟩
      fun other hother _ => ?_
    · by_cases heq : other = id
      · subst heq
        rw [Session.count_advance_self, Session.count_advance_self]
      · rw [Session.count_advance_of_ne heq, Session.count_advance_of_ne heq, hagrees.count other hother]
    · refine Session.count_advance_of_ne ?_ position
      rintro rfl
      exact h hother
  · exact .ok ⟨rfl, trivial⟩ hagrees fun _ _ _ => rfl

/-- A generator that is made is another one. -/
theorem framed_makeGenerator {items : List Value} (h : ∀ v ∈ items, v.IsWithout ids) :
    Framed ids (Value.IsWithout ids) (makeGenerator items) := by
  intro s t hagrees _
  -- the generators are made already, and the new one gets the next number
  have hother : s.made ∉ ids := fun hmem => Nat.lt_irrefl _ (hagrees.isMade _ hmem)
  rw [makeGenerator, makeGenerator, ← hagrees.made]
  exact .ok ⟨rfl, .generator _ _ hother h⟩
    ⟨rfl, fun id hid => Nat.lt_succ_of_lt (hagrees.isMade id hid), hagrees.count⟩ fun _ _ _ => rfl

/-- Reading an item of another generator, and then the rest of it. -/
theorem Corresponds.drawn {α β : Type} {own own' : List ℕ} {x next : Pass (List α)}
    {y next' : Pass (List β)} {R R' R'' : List α → List β → Prop} {id : ℕ} (hid : id ∉ ids) (position : ℕ)
    (h : Corresponds ids own R x y) (hnil : R [] []) (hnext : Corresponds ids own' R' next next')
    (hdisjoint : own.Disjoint own') (hown : own ++ own' ⊆ ids)
    (happend : ∀ a b a' b', R a b → R' a' b' → R'' (a ++ a') (b ++ b')) :
    Corresponds ids (own ++ own') R''
      (do
        let here ← if ← drawItem id position then x else Pure.pure []
        Pure.pure (here ++ (← next)))
      (do
        let here ← if ← drawItem id position then y else Pure.pure []
        Pure.pure (here ++ (← next'))) := by
  refine Corresponds.after (framed_drawItem hid position) (fun isLeft _ => ?_) hown
  have hown' : own' ⊆ ids := fun _ h => hown (List.mem_append_right _ h)
  cases isLeft with
  | true => exact h.append hnext hdisjoint hown' happend
  | false => exact Corresponds.append (.pure hnil) hnext hdisjoint hown' happend

/-- Work on what is left of a generator of its own, of which nobody has read more than the items before a
position. -/
def CorrespondsFrom {α β : Type} (ids own : List ℕ) (id position : ℕ) (R : α → β → Prop)
    (x : Pass α) (y : Pass β) : Prop :=
  ∀ s t : Session, s.Agrees ids t → (∀ other ∈ own, s.count other = 0) → s.count id ≤ position →
    SameOutcome ids (id :: own) R s (x s) (y t)

namespace CorrespondsFrom

variable {α β : Type} {own own' : List ℕ} {id position : ℕ}

theorem pure {R : α → β → Prop} {a : α} {b : β} (h : R a b) :
    CorrespondsFrom ids own id position R (pure a) (pure b) :=
  fun _ _ hagrees _ _ => .ok h hagrees fun _ _ _ => rfl

theorem mono {R : α → β → Prop} {x : Pass α} {y : Pass β}
    (h : CorrespondsFrom ids own id position R x y) (hown : own ⊆ own') :
    CorrespondsFrom ids own' id position R x y := by
  intro s t hagrees hundrawn hcount
  have hx := h s t hagrees (fun other hother => hundrawn other (hown hother)) hcount
  generalize x s = xs, y t = yt at hx
  cases hx with
  | error failure => exact .error failure
  | ok related agrees kept =>
    refine .ok related agrees fun other hother hnot => kept other hother fun hmem => hnot ?_
    exact (List.mem_cons.mp hmem).elim (fun heq => heq ▸ List.mem_cons_self) fun h =>
      List.mem_cons_of_mem _ (hown h)

/-- From its first item on it is a generator of its own that nobody has read. -/
theorem corresponds {R : α → β → Prop} {x : Pass α} {y : Pass β}
    (h : CorrespondsFrom ids own id 0 R x y) : Corresponds ids (id :: own) R x y := by
  intro s t hagrees hundrawn
  obtain ⟨hid, hown⟩ := List.forall_mem_cons.mp hundrawn
  exact h s t hagrees hown (Nat.le_of_eq hid)

/-- **The next item.** It is there to be read, and what is read meanwhile is not this generator. -/
theorem cons {x next : Pass (List α)} {y next' : Pass (List β)} {R R' R'' : List α → List β → Prop}
    (hid : id ∈ ids) (h : Corresponds ids own R x y)
    (hnext : CorrespondsFrom ids own' id (position + 1) R' next next') (hnot : id ∉ own ++ own')
    (hdisjoint : own.Disjoint own') (hown : own' ⊆ ids)
    (happend : ∀ a b a' b', R a b → R' a' b' → R'' (a ++ a') (b ++ b')) :
    CorrespondsFrom ids (own ++ own') id position R''
      (do
        let here ← if ← drawItem id position then x else Pure.pure []
        Pure.pure (here ++ (← next)))
      (do let here ← y; Pure.pure (here ++ (← next'))) := by
  intro s t hagrees hundrawn hcount
  have hne : ∀ other ∈ own ++ own', other ≠ id := fun other hother heq => hnot (heq ▸ hother)
  have hdraw : drawItem id position s = .ok (true, s.advance id position) := by rw [drawItem, if_pos hcount]
  have hagrees' : (s.advance id position).Agrees ids t := by
    refine ⟨hagrees.made, hagrees.isMade, fun other hother => ?_⟩
    have hother' : other ≠ id := by
      rintro rfl
      exact hother hid
    rw [Session.count_advance_of_ne hother', hagrees.count other hother]
  have hx := h _ t hagrees' fun other hother => by
    rw [Session.count_advance_of_ne (hne other (List.mem_append_left _ hother))]
    exact hundrawn other (List.mem_append_left _ hother)
  simp only [bind, StateT.bind, hdraw, Except.bind, if_true]
  generalize x (s.advance id position) = xs, y t = yt at hx
  cases hx with
  | error failure => exact .error failure
  | @ok a b s' t' related agrees kept =>
    -- the item is drawn, so that the next one is the first that nobody has read
    have hcount' : s'.count id = position + 1 := by
      rw [kept id hid fun hmem => hnot (List.mem_append_left _ hmem), Session.count_advance_self]
    have hundrawn' : ∀ other ∈ own', s'.count other = 0 := fun other hother => by
      rw [kept other (hown hother) fun hmem => hdisjoint hmem hother,
        Session.count_advance_of_ne (hne other (List.mem_append_right _ hother))]
      exact hundrawn other (List.mem_append_right _ hother)
    have hrest := hnext s' t' agrees hundrawn' (Nat.le_of_eq hcount')
    dsimp only
    generalize next s' = fs, next' t' = gt at hrest
    cases hrest with
    | error failure => exact .error failure
    | ok related' agrees kept' =>
      refine .ok (happend _ _ _ _ related related') agrees fun other hother hnone => ?_
      rw [List.mem_cons, List.mem_append, not_or, not_or] at hnone
      obtain ⟨hother', hnot, hnot'⟩ := hnone
      rw [kept' other hother (List.not_mem_cons_of_ne_of_not_mem hother' hnot'), kept other hother hnot,
        Session.count_advance_of_ne hother']

end CorrespondsFrom

end Generators

/-! ### Reading items and pairs -/

namespace Element

variable {ids : List ℕ} {v : Value}

/-- Drawing from another generator is framed. -/
theorem framed_drawRest {id : ℕ} (hid : id ∉ ids) (position : ℕ) {items : List Value}
    (h : ∀ v ∈ items, v.IsWithout ids) :
    Framed ids (fun left => ∀ v ∈ left, v.IsWithout ids) (drawRest id position items) := by
  induction items generalizing position with
  | nil =>
    rw [drawRest]
    exact .pure (List.forall_mem_nil _)
  | cons v rest ih =>
    obtain ⟨hv, hrest⟩ := List.forall_mem_cons.mp h
    rw [drawRest]
    refine (framed_drawItem hid position).bind fun isLeft _ => ?_
    refine (ih (position + 1) hrest).bind fun left hleft => .pure ?_
    refine List.forall_mem_append.mpr ⟨?_, hleft⟩
    split
    · exact List.forall_mem_singleton.mpr hv
    · exact List.forall_mem_nil _

/-- Reading the items of a value without the generators is framed. -/
theorem framed_iterate (h : v.IsWithout ids) :
    Framed ids (fun items => ∀ w ∈ items, w.IsWithout ids) (iterate v) := by
  unfold iterate
  split
  · next id items =>
    cases h with
    | generator _ _ other each => exact framed_drawRest other 0 each
  · exact .liftM fun items hitems => (Value.hereditary_isWithout ids).parts h hitems

/-- A failure to read an item as a pair is another failure, but no other work. -/
private theorem framed_pairAt (position : ℕ) (h : v.IsWithout ids) :
    Framed ids (fun entry => entry.1.IsWithout ids ∧ entry.2.IsWithout ids) (pairAt position v) := by
  intro s t hagrees hnone
  have hiterate := framed_iterate h s t hagrees hnone
  unfold pairAt
  generalize iterate v s = left, iterate v t = right at hiterate
  cases hiterate with
  | error failure => exact .error _
  | @ok items items' s' t' related agrees kept =>
    obtain ⟨rfl, hitems⟩ := related
    match items, hitems with
    | [key, value], hitems =>
      exact .ok ⟨rfl, hitems key (by simp), hitems value (by simp)⟩ agrees kept
    | [], _ | [_], _ | _ :: _ :: _ :: _, _ => exact .error _

/-- So is putting pairs into a mapping. -/
private theorem framed_putPairs {m : Mapping} (hm : m.IsWithout ids) (position : ℕ) {items : List Value}
    (h : ∀ v ∈ items, v.IsWithout ids) :
    Framed ids (Mapping.IsWithout ids) (putPairs m position items) := by
  induction items generalizing m position with
  | nil =>
    rw [putPairs]
    exact .pure hm
  | cons item rest ih =>
    obtain ⟨hitem, hrest⟩ := List.forall_mem_cons.mp h
    rw [putPairs]
    refine (framed_pairAt position hitem).bind fun entry hentry => ?_
    have hchecked : Framed ids (fun _ => True) (liftM entry.1.checkKey : Pass Unit) :=
      .liftM fun _ _ => trivial
    exact hchecked.bind fun _ _ => ih (hm.put hentry.1 hentry.2) (position + 1) hrest

/-- So is reading a dictionary. -/
theorem framed_dictionary (h : v.IsWithout ids) : Framed ids (Mapping.IsWithout ids) (dictionary v) := by
  unfold dictionary
  split
  · exact .pure ((Value.hereditary_isWithout ids).of_map h)
  · refine (framed_iterate h).bind fun items hitems => framed_putPairs ?_ 0 hitems
    exact List.forall_mem_nil _

theorem framed_properties (h : v.IsWithout ids) : Framed ids (Mapping.IsWithout ids) (properties v) := by
  unfold properties
  split
  · exact framed_dictionary h
  · exact .pure (List.forall_mem_nil _)

/-- An element of parts without the generators is without them. -/
theorem isWithout_element {type : Value} (htype : type.IsWithout ids) {props : Mapping}
    (hprops : props.IsWithout ids) {children : List Value} (hchildren : ∀ v ∈ children, v.IsWithout ids) :
    (Value.element type props children).IsWithout ids :=
  .element _ _ _ htype (fun entry hentry => (hprops entry hentry).1)
    (fun entry hentry => (hprops entry hentry).2) hchildren

/-- Making an element of such parts gives one. -/
theorem isWithout_make {type : Value} (htype : type.IsWithout ids) {props : Mapping}
    (hprops : props.IsWithout ids) {children : List Value} (hchildren : ∀ v ∈ children, v.IsWithout ids) :
    (make type props children).IsWithout ids := by
  have hp := Value.hereditary_isWithout ids
  refine isWithout_element htype (hprops.erase "children") ?_
  split
  · exact hp.propertyChildren (hp.getD hprops "children")
  · exact hchildren

end Element

/-! ### Bodies -/

namespace Body

variable {ids : List ℕ} {isBuilding : Bool} {scope : Scope}

private theorem framed_samplesTrait {samples : Value} (h : samples.IsWithout ids) :
    Framed ids (fun traits => ∀ entry ∈ traits, entry.2.IsWithout ids) (samplesTrait samples) := by
  unfold samplesTrait
  split
  · exact .pure (List.forall_mem_nil _)
  · refine (Element.framed_dictionary h).bind fun m hm => .pure ?_
    exact List.forall_mem_singleton.mpr ((Value.hereditary_isWithout ids).map hm)

mutual

/-- **Bodies.** Evaluating a body is framed, and what it makes of a scope without some generators is
without them. -/
theorem framed_eval (hscope : ∀ entry ∈ scope, entry.2.IsWithout ids) :
    (b : Body) → Framed ids (Value.IsWithout ids) (b.eval isBuilding scope)
  | .null => by rw [eval]; exact .pure .null
  | .bool b => by rw [eval]; exact .pure (.bool b)
  | .int i => by rw [eval]; exact .pure (.int i)
  | .float x => by rw [eval]; exact .pure (.float x)
  | .str s => by rw [eval]; exact .pure (.str s)
  | .raw s => by rw [eval]; exact .pure (.raw s)
  | .bytes s => by rw [eval]; exact .pure (.bytes s)
  | .absent => by rw [eval]; exact .pure .absent
  | .fragmentType => by rw [eval]; exact .pure .fragmentType
  | .list items => by
    rw [eval]
    exact (framed_evalAll hscope items).bind fun values hvalues => .pure (.list _ hvalues)
  | .tuple items => by
    rw [eval]
    exact (framed_evalAll hscope items).bind fun values hvalues => .pure (.tuple _ hvalues)
  | .generator items => by
    rw [eval]
    exact (framed_evalAll hscope items).bind fun values hvalues => framed_makeGenerator hvalues
  | .map entries => by
    rw [eval]
    refine (framed_evalEntries hscope entries).bind fun values hvalues => .pure ?_
    exact (Value.hereditary_isWithout ids).map (Mapping.forall_ofEntries hvalues)
  | .object attributes => by
    rw [eval]
    refine (framed_evalNamed hscope attributes).bind fun values hvalues => .pure ?_
    have hall := forall_attributesOf (p := fun _ => True) fun entry hentry =>
      ⟨trivial, hvalues entry hentry⟩
    exact .object _ fun entry hentry => (hall entry hentry).2
  | .element type props children => by
    rw [eval]
    refine (framed_evalAll hscope children).bind fun values hvalues => ?_
    refine (framed_eval hscope type).bind fun type htype => ?_
    refine (framed_eval hscope props).bind fun props hprops => ?_
    exact (Element.framed_properties hprops).bind fun m hm =>
      .pure (Element.isWithout_make htype hm hvalues)
  | .fragment children => by
    rw [eval]
    exact (framed_evalAll hscope children).bind fun values hvalues =>
      .pure (Element.isWithout_element .fragmentType (List.forall_mem_nil _) hvalues)
  | .ifThen condition children => by
    rw [eval]
    refine (framed_evalAll hscope children).bind fun values hvalues => ?_
    refine (framed_eval hscope condition).bind fun condition hcondition => .pure ?_
    exact Element.isWithout_element (.helper _) (List.forall_mem_singleton.mpr ⟨.str _, hcondition⟩) hvalues
  | .otherwise children => by
    rw [eval]
    exact (framed_evalAll hscope children).bind fun values hvalues =>
      .pure (Element.isWithout_element (.helper _) (List.forall_mem_nil _) hvalues)
  | .each array children itemVar => by
    rw [eval]
    refine (framed_evalAll hscope children).bind fun values hvalues => ?_
    refine (framed_eval hscope array).bind fun array harray => ?_
    refine (framed_eval hscope itemVar).bind fun itemVar hitemVar => .pure ?_
    refine Element.isWithout_element (.helper _) ?_ hvalues
    exact List.forall_mem_cons.mpr ⟨⟨.str _, harray⟩, List.forall_mem_singleton.mpr ⟨.str _, hitemVar⟩⟩
  | .val name value => by
    rw [eval]
    refine (framed_eval hscope name).bind fun name hname => ?_
    refine (framed_eval hscope value).bind fun value hvalue => .pure ?_
    refine Element.isWithout_element (.helper _) ?_ (List.forall_mem_nil _)
    exact List.forall_mem_cons.mpr ⟨⟨.str _, hname⟩, List.forall_mem_singleton.mpr ⟨.str _, hvalue⟩⟩
  | .provider data children => by
    rw [eval]
    refine (framed_evalAll hscope children).bind fun values hvalues => ?_
    refine (framed_eval hscope data).bind fun data hdata => .pure ?_
    exact Element.isWithout_element (.helper _) (List.forall_mem_singleton.mpr ⟨.str _, hdata⟩) hvalues
  | .closure name body samples traits => by
    rw [eval]
    refine (framed_eval hscope samples).bind fun samples hsamples => ?_
    refine (framed_samplesTrait hsamples).bind fun samples hsamples => ?_
    refine (framed_evalNamed hscope traits).bind fun named hnamed => .pure ?_
    -- the body is evaluated when the closure is called, in the scope that is kept
    exact .closure _ _ _ _ hscope (List.forall_mem_append.mpr ⟨hnamed, hsamples⟩)
  | .ref name path => by
    rw [eval]
    refine .pure ((Value.hereditary_isWithout ids).select ?_ path)
    cases hlookup : scope.lookup name with
    | none => exact .null
    | some v =>
      obtain ⟨before, after, rfl, -⟩ := List.lookup_eq_some_iff.mp hlookup
      exact hscope (name, v) (by simp)
  | .concat items => by
    rw [eval]
    exact (framed_evalAll hscope items).bind fun values _ => .pure (.str _)
  | .whenBuilding yes no => by
    rw [eval]
    split
    · exact framed_eval hscope yes
    · exact framed_eval hscope no
  | .fail kind text => by
    rw [eval]
    exact .throw _

/-- Evaluating bodies in a scope without the generators is framed. -/
private theorem framed_evalAll (hscope : ∀ entry ∈ scope, entry.2.IsWithout ids) :
    (items : List Body) →
      Framed ids (fun values => ∀ v ∈ values, v.IsWithout ids) (evalAll isBuilding scope items)
  | [] => by
    rw [evalAll]
    exact .pure (List.forall_mem_nil _)
  | b :: rest => by
    rw [evalAll]
    refine (framed_eval hscope b).bind fun v hv => ?_
    exact (framed_evalAll hscope rest).bind fun values hvalues =>
      .pure (List.forall_mem_cons.mpr ⟨hv, hvalues⟩)

/-- So is evaluating the entries of a mapping. -/
private theorem framed_evalEntries (hscope : ∀ entry ∈ scope, entry.2.IsWithout ids) :
    (entries : List (Body × Body)) →
      Framed ids (Mapping.IsWithout ids) (evalEntries isBuilding scope entries)
  | [] => by
    rw [evalEntries]
    exact .pure (List.forall_mem_nil _)
  | (key, value) :: rest => by
    rw [evalEntries]
    refine (framed_eval hscope key).bind fun k hk => ?_
    refine (framed_eval hscope value).bind fun v hv => ?_
    have hchecked : Framed ids (fun _ => True) (liftM k.checkKey : Pass Unit) :=
      .liftM fun _ _ => trivial
    refine hchecked.bind fun _ _ => ?_
    exact (framed_evalEntries hscope rest).bind fun values hvalues =>
      .pure (List.forall_mem_cons.mpr ⟨⟨hk, hv⟩, hvalues⟩)

private theorem framed_evalNamed (hscope : ∀ entry ∈ scope, entry.2.IsWithout ids) :
    (attributes : List (String × Body)) →
      Framed ids (fun values => ∀ entry ∈ values, entry.2.IsWithout ids)
        (evalNamed isBuilding scope attributes)
  | [] => by
    rw [evalNamed]
    exact .pure (List.forall_mem_nil _)
  | (name, body) :: rest => by
    rw [evalNamed]
    refine (framed_eval hscope body).bind fun v hv => ?_
    exact (framed_evalNamed hscope rest).bind fun values hvalues =>
      .pure (List.forall_mem_cons.mpr ⟨hv, hvalues⟩)

end

end Body

/-! ### Calls -/

namespace Component

variable {ids : List ℕ} {isBuilding : Bool} {component : Value}

private theorem framed_callWith (hcomponent : component.IsWithout ids) {arguments : Scope}
    (harguments : ∀ entry ∈ arguments, entry.2.IsWithout ids) :
    Framed ids (Value.IsWithout ids) (callWith isBuilding arguments component) := by
  unfold callWith
  split
  · have hbound := ((Value.hereditary_isWithout ids).of_closure hcomponent).1
    exact Body.framed_eval (List.forall_mem_append.mpr ⟨harguments, hbound⟩) _
  · exact .throw _

/-- **Calls.** Calling a component is framed, and what it returns is without the generators that the
component and its properties are without. -/
theorem framed_call (hcomponent : component.IsWithout ids) {props : Mapping} (hprops : props.IsWithout ids) :
    Framed ids (Value.IsWithout ids) (call isBuilding component props) := by
  unfold call
  split
  · next arguments hsome =>
    refine framed_callWith hcomponent (List.forall_mem_cons.mpr ⟨?_, forall_arguments hprops hsome⟩)
    exact (Value.hereditary_isWithout ids).map hprops
  · exact .throw _

/-- So is calling a component without the generators with an item. -/
theorem framed_callItem (hcomponent : component.IsWithout ids) {item : Value} (hitem : item.IsWithout ids)
    (index : ℕ) : Framed ids (Value.IsWithout ids) (callItem isBuilding component item index) :=
  framed_callWith hcomponent
    (List.forall_mem_cons.mpr ⟨hitem, List.forall_mem_singleton.mpr (.int _)⟩)

/-- Properties stay without the generators with children that are. -/
theorem isWithout_withChildren {props : Mapping} (hprops : props.IsWithout ids) {children : List Value}
    (hchildren : ∀ v ∈ children, v.IsWithout ids) : (withChildren props children).IsWithout ids := by
  have hp := Value.hereditary_isWithout ids
  unfold withChildren
  split
  · exact hprops
  · exact hp.set hprops _ (hchildren _ (by simp))
  · exact hp.set hprops _ (.list _ hchildren)

end Component

end Stencil
