import Stencil.Proofs.Condition.Lookups

/-!
# Chains of steps

A chain leads from a value to what is inside it, by the keys of mappings and the positions in lists
(`LeadsTo`). It is written as a path with a dot before each key, and with a dot, brackets or both
around each position (`IsPathOf`).

The main statement is `lookup_chain`: **a path that writes a chain leads to the value at the end of the
chain, however its positions are written, and nowhere as soon as one of its steps is not there.** A part
of a path is taken for a position or a key by its spelling alone, before it is known what it is a step
into. So a key and a position that are written alike are one step, and a key of decimal digits only has to
be written as its number is: no path leads to the entry of a key such as `01`, nor to that of a key of more
digits than are read (`lookup_digits_ne`).
-/

namespace Stencil

open Text

/-! ### Numbers as parts of a path -/

private theorem digitValue?_of_isDigit {c : Char} (h : c.isDigit = true) :
    digitValue? c = some (c.toNat - '0'.toNat) := by
  obtain ⟨hlo, hhi⟩ : '0' ≤ c ∧ c ≤ '9' := by
    simpa [Char.isDigit, Char.le_def] using h
  have hascii : c.toNat < 0x80 := by
    have hle : c.toNat ≤ '9'.toNat := hhi
    have hnine : '9'.toNat = 57 := rfl
    omega
  rw [digitValue?, if_pos hascii, if_pos (by simp [isAsciiDigit, hlo, hhi])]
  rfl

private theorem isDigit_of_mem_natText {n : ℕ} {c : Char} (h : c ∈ Decimal.natText n) :
    c.isDigit = true :=
  Nat.isDigit_of_mem_toDigits (by decide) (by decide) h

/-- A number is written in decimal digits. -/
theorem all_isDigit_natText (n : ℕ) : (Decimal.natText n).all isDigit = true := by
  rw [List.all_eq_true]
  intro c hc
  rw [isDigit, digitValue?_of_isDigit (isDigit_of_mem_natText hc), Option.isSome_some]

/-- The digits of a number write the number. -/
theorem digitsValue_natText (n : ℕ) : digitsValue (Decimal.natText n) = n := by
  have hfold : ∀ (t : Text) (start : ℕ), (∀ c ∈ t, c.isDigit = true) →
      t.foldl (fun n c => 10 * n + (digitValue? c).getD 0) start = Nat.ofDigitChars 10 t start := by
    intro t
    induction t with
    | nil => exact fun _ _ => rfl
    | cons c t ih =>
      intro start h
      rw [List.forall_mem_cons] at h
      rw [List.foldl_cons, digitValue?_of_isDigit h.1, ih _ h.2]
      rfl
  rw [digitsValue, hfold _ _ fun c hc => isDigit_of_mem_natText hc]
  exact Nat.ofDigitChars_ten_toDigits

namespace Path

/-! ### Chains and how they are written -/

/-- A step of a chain. -/
inductive Link where
  /-- A key of a mapping. -/
  | key (name : String)
  /-- A position in a list. -/
  | position (i : ℕ)

/-- The part of a path that a step is written as. -/
def Link.text : Link → Text
  | .key name => name.toList
  | .position i => Decimal.natText i

/-- A text that can be a part of a path: it is not empty and has no separators. -/
structure IsPart (t : Text) : Prop where
  ne_nil : t ≠ []
  isSeparator_of_mem : ∀ c ∈ t, isSeparator c = false

instance : DecidablePred IsPart := fun t =>
  decidable_of_iff (t ≠ [] ∧ ∀ c ∈ t, isSeparator c = false)
    ⟨fun h => ⟨h.1, h.2⟩, fun h => ⟨h.1, h.2⟩⟩

/-- A step of digits only is written as its number is. -/
def Link.IsCanonical (l : Link) : Prop :=
  l.text.all isDigit = true → l.text = Decimal.natText (digitsValue l.text)

instance : DecidablePred Link.IsCanonical := fun l =>
  inferInstanceAs (Decidable (l.text.all isDigit = true → l.text = Decimal.natText (digitsValue l.text)))

/-- The steps of a chain one behind the other, as a path has them: a key behind a dot, a position behind a
dot, in brackets, or both. -/
inductive Spells : List Link → Text → Prop
  | done : Spells [] []
  | dotted {l : Link} {p : List Link} {t : Text} (isPart : IsPart l.text) (next : Spells p t) :
      Spells (l :: p) ('.' :: (l.text ++ t))
  | bracketed {i : ℕ} {p : List Link} {t : Text} (next : Spells p t) :
      Spells (.position i :: p) ('[' :: (Decimal.natText i ++ ']' :: t))
  | dottedBracketed {i : ℕ} {p : List Link} {t : Text} (next : Spells p t) :
      Spells (.position i :: p) ('.' :: '[' :: (Decimal.natText i ++ ']' :: t))

/-- A path that writes a chain. The dot before its first step is left out. -/
def IsPathOf (p : List Link) (t : Text) : Prop := Spells p t ∨ Spells p ('.' :: t)

theorem isPart_natText (n : ℕ) : IsPart (Decimal.natText n) := by
  refine ⟨Nat.toDigits_ne_nil, fun c hc => ?_⟩
  have hdigit := isDigit_of_mem_natText hc
  rw [← Bool.not_eq_true]
  intro hseparator
  obtain (rfl | rfl) | rfl : (c = '.' ∨ c = '[') ∨ c = ']' := by simpa [isSeparator] using hseparator
  all_goals cases hdigit

theorem IsPart.fields_eq {t : Text} (h : IsPart t) : fields t = [t] :=
  fields_of_forall h.isSeparator_of_mem h.ne_nil

section Spells

variable {p : List Link} {t : Text}

/-- Every step begins with a separator. -/
theorem Spells.isSeparator_head (h : Spells p t) : ∀ c ∈ t.head?, isSeparator c = true := by
  intro c hc
  cases h with
  | done => cases hc
  | dotted | bracketed | dottedBracketed =>
    obtain rfl := Option.some.inj hc
    rfl

/-- **The parts of a path** are the texts of the steps that it writes. -/
theorem Spells.fields_eq (h : Spells p t) : fields t = p.map Link.text := by
  have hbrackets : ∀ (i : ℕ) (u : Text),
      fields ('[' :: (Decimal.natText i ++ ']' :: u)) = Decimal.natText i :: fields u := fun i u => by
    rw [fields_cons rfl, fields_append_cons rfl, (isPart_natText i).fields_eq]
    rfl
  induction h with
  | done => rfl
  | @dotted l p t isPart next ih =>
    rw [fields_cons rfl, List.map_cons, ← ih]
    cases t with
    | nil => rw [List.append_nil, isPart.fields_eq]; rfl
    | cons c t =>
      have hc := next.isSeparator_head c rfl
      rw [fields_append_cons hc, isPart.fields_eq, fields_cons hc]
      rfl
  | bracketed next ih =>
    rw [hbrackets, ih]
    rfl
  | dottedBracketed next ih =>
    rw [fields_cons rfl, hbrackets, ih]
    rfl

theorem IsPathOf.fields_eq (h : IsPathOf p t) : fields t = p.map Link.text := by
  rcases h with h | h
  · exact h.fields_eq
  · exact (fields_cons rfl t).symm.trans h.fields_eq

theorem IsPathOf.parse_eq (h : IsPathOf p t) : parse t = p.map fun l => Path.segment l.text := by
  rw [parse, h.fields_eq, List.map_map]
  rfl

end Spells

end Path

namespace Value

open Stencil.Path

variable {v u : Value} {p : List Link} {entries : Mapping} {items : List Value} {l : Link}

/-! ### What is there -/

/-- A mapping whose keys are texts. -/
def HasTextKeys (entries : Mapping) : Prop := ∀ entry ∈ entries, entry.1.text?.isSome = true

/-- A chain of steps that are there leads to a value. -/
inductive LeadsTo : Value → List Link → Value → Prop
  | here (v : Value) : LeadsTo v [] v
  | entry {entries : Mapping} {name : String} {v u : Value} {p : List Link}
      (keys : HasTextKeys entries) (found : entries.at? name = some v) (next : LeadsTo v p u) :
      LeadsTo (.map entries) (.key name :: p) u
  | item {v item u : Value} {items : List Value} {i : ℕ} {p : List Link}
      (isList : v.items? = some items) (found : items[i]? = some item) (next : LeadsTo item p u) :
      LeadsTo v (.position i :: p) u

/-- A step that is not there, neither as a key nor as a position that is written so. -/
inductive Lacks : Value → Link → Prop
  | entry {entries : Mapping} {l : Link} (keys : HasTextKeys entries)
      (missing : entries.at? (String.ofList l.text) = none) : Lacks (.map entries) l
  | item {v : Value} {items : List Value} {l : Link} (isList : v.items? = some items)
      (missing : ∀ i, l.text = Decimal.natText i → items.length ≤ i) : Lacks v l

/-! ### Single steps -/

/-- No number is a key among texts. -/
private theorem get?_int_of_hasTextKeys (h : HasTextKeys entries) (i : ℤ) :
    Mapping.get? (.int i) entries = none := by
  induction entries with
  | nil => rfl
  | cons entry rest ih =>
    obtain ⟨key, value⟩ := entry
    obtain ⟨hkey, hrest⟩ := List.forall_mem_cons.mp h
    have hne : key.sameKey (.int i) = false := by
      cases key <;> first | rfl | cases hkey
    rw [Mapping.get?, hne]
    exact ih hrest

/-- A step into a mapping goes to the entry of the key that is written so. -/
theorem step_segment_map (hkeys : HasTextKeys entries) (hl : l.IsCanonical) :
    (Value.map entries).step (Path.segment l.text) =
      (entries.at? (String.ofList l.text)).getD .absent := by
  rw [step, Path.segment]
  split_ifs with hdigits
  · have htext : Decimal.intText (digitsValue l.text) = l.text := (hl hdigits).symm
    simp only [entryAt, Segment.toValue, get?_int_of_hasTextKeys hkeys, htext]
  · rw [entryAt, Segment.toValue, Mapping.at?]
    cases Mapping.get? (.str (String.ofList l.text)) entries <;> rfl

/-- A step into a list goes to the item of the number that is written. -/
theorem step_segment_items (hitems : v.items? = some items) (l : Link) :
    v.step (Path.segment l.text) =
      if l.text.all isDigit then items.getD (digitsValue l.text) .absent else .absent := by
  cases v with
  | list own | tuple own =>
    obtain rfl : own = items := Option.some.inj hitems
    rw [Path.segment]
    split_ifs with hdigits
    · simp [step, itemAt]
    · rfl
  | _ => cases hitems

private theorem isNothing_of_items? (h : v.items? = some items) : v.isNothing = false := by
  cases v <;> first | rfl | cases h

/-- From nothing every path leads nowhere. -/
theorem follow_absent (q : Path) : Value.absent.follow q = .absent := by
  cases q with
  | nil => rfl
  | cons s q => exact follow_of_isNothing rfl s q

/-! ### Chains -/

/-- The steps of a chain lead to its end. -/
theorem LeadsTo.follow_eq (h : LeadsTo v p u) (hp : ∀ l ∈ p, l.IsCanonical) :
    v.follow (p.map fun l => Path.segment l.text) = u := by
  induction h with
  | here => rfl
  | entry keys found next ih =>
    rw [List.forall_mem_cons] at hp
    rw [List.map_cons, follow, step_segment_map keys hp.1, Link.text, String.ofList_toList, found]
    exact ih hp.2
  | @item v item u items i p isList found next ih =>
    rw [List.forall_mem_cons] at hp
    have hstep : v.step (Path.segment (Link.position i).text) = item := by
      rw [step_segment_items isList, Link.text, if_pos (all_isDigit_natText i), digitsValue_natText,
        List.getD_eq_getElem?_getD, found, Option.getD_some]
    rw [List.map_cons, follow, isNothing_of_items? isList, hstep]
    exact ih hp.2

/-- A step that is not there leads nowhere. -/
theorem Lacks.step_eq (h : Lacks v l) (hl : l.IsCanonical) :
    v.isNothing = false ∧ v.step (Path.segment l.text) = .absent := by
  cases h with
  | entry keys missing => exact ⟨rfl, by rw [step_segment_map keys hl, missing, Option.getD_none]⟩
  | @item _ items _ isList missing =>
    refine ⟨isNothing_of_items? isList, ?_⟩
    rw [step_segment_items isList]
    split_ifs with hdigits
    · rw [List.getD_eq_getElem?_getD, List.getElem?_eq_none (missing _ (hl hdigits)), Option.getD_none]
    · rfl

/-- A chain with a step that is not there leads nowhere. -/
theorem LeadsTo.follow_lacks (h : LeadsTo v p u) (hp : ∀ l ∈ p, l.IsCanonical) (hlacks : Lacks u l)
    (hl : l.IsCanonical) (rest : List Link) :
    v.follow ((p ++ l :: rest).map fun l => Path.segment l.text) = .absent := by
  obtain ⟨hnothing, hstep⟩ := hlacks.step_eq hl
  have hend := h.follow_eq hp
  rw [List.map_append, follow_append v _ _ (hend ▸ hnothing), hend, List.map_cons, follow, hnothing, hstep]
  exact follow_absent _

/-- **Paths of chains.** A path that can be read leads to the end of the chain that it writes, and nowhere if
a step of it is not there; in which way its positions are written makes no difference. -/
theorem lookup_chain (h : LeadsTo v p u) (hp : ∀ l ∈ p, l.IsCanonical) :
    (∀ t, IsPathOf p t → ∀ x, v.lookup t = .ok x ↔ Condition.IsReadable t ∧ x = u) ∧
      (∀ l rest, Lacks u l → l.IsCanonical → ∀ t, IsPathOf (p ++ l :: rest) t →
        ∀ x, v.lookup t = .ok x ↔ Condition.IsReadable t ∧ x = .absent) ∧
      ∀ q t t', IsPathOf q t → IsPathOf q t' → ∀ w : Value, w.lookup t = w.lookup t' := by
  have hlookup : ∀ {q t x}, IsPathOf q t → v.follow (q.map fun l => Path.segment l.text) = x →
      ∀ y, v.lookup t = .ok y ↔ Condition.IsReadable t ∧ y = x := by
    rintro q t x ht rfl y
    rw [lookup_eq_ok_iff, ← Condition.isReadable_iff, resolve, ht.parse_eq, eq_comm (a := y)]
  refine ⟨fun t ht => hlookup ht (h.follow_eq hp),
    fun l rest hlacks hl t ht => hlookup ht (h.follow_lacks hp hlacks hl rest), ?_⟩
  intro q t t' ht ht' w
  have hread : Path.read t = Path.read t' := by
    rw [Path.read, Path.read, parse, parse, ht.fields_eq, ht'.fields_eq]
  rw [lookup, lookup, hread]

/-- Orders by their numbers, and the rows of each. -/
def orders : Value :=
  .map [(.str "orders", .map [(.str "2", .list [.tuple [.null, .map [(.str "name", .str "Ada")]]])])]

/-- The chain to the second place of the first row of an order. -/
def secondPlace : List Link := [.key "orders", .key "2", .position 0, .position 1]

theorem lookup_orders :
    (∀ t ∈ ["orders.2[0].[1]".toList, "orders.2.0[1]".toList],
        orders.lookup t = .ok (.map [(.str "name", .str "Ada")])) ∧
      orders.lookup "orders.2[0].[1][5].name".toList = .ok .absent ∧
      orders.lookup "orders.2[0].1.name".toList = orders.lookup "orders.2.0.[1].name".toList := by
  have hkeys : ∀ (name : String) (v : Value), HasTextKeys [(.str name, v)] := fun name v => by
    simp [HasTextKeys, text?]
  have hchain : LeadsTo orders secondPlace (.map [(.str "name", .str "Ada")]) :=
    .entry (hkeys _ _) rfl (.entry (hkeys _ _) rfl (.item rfl rfl (.item rfl rfl (.here _))))
  have horder : ∀ {p t}, Spells p t → Spells (.key "orders" :: .key "2" :: p) (".orders.2".toList ++ t) :=
    fun h => .dotted (by decide) (.dotted (by decide) h)
  have hname : Spells [.key "name"] ".name".toList := .dotted (t := []) (by decide) .done
  obtain ⟨hfound, hmissing, hsame⟩ := lookup_chain hchain (by decide)
  refine ⟨?_, ?_, ?_⟩
  · rw [List.forall_mem_cons, List.forall_mem_singleton]
    refine ⟨(hfound _ ?_ _).mpr ⟨by decide, rfl⟩, (hfound _ ?_ _).mpr ⟨by decide, rfl⟩⟩
    · exact .inr (horder (.bracketed (.dottedBracketed .done)))
    · exact .inr (horder (.dotted (l := .position 0) (t := "[1]".toList) (by decide) (.bracketed .done)))
  · refine (hmissing (.position 5) [.key "name"] (.entry (hkeys _ _) rfl) (by decide) _ ?_ _).mpr
      ⟨by decide, rfl⟩
    exact .inr (horder (.bracketed (.dottedBracketed (.bracketed hname))))
  · refine hsame (secondPlace ++ [.key "name"]) _ _ ?_ ?_ _
    · exact .inr (horder (.bracketed (.dotted (l := .position 1) (t := ".name".toList) (by decide) hname)))
    · exact .inr (horder (.dotted (l := .position 0) (t := ".[1].name".toList) (by decide)
        (.dottedBracketed hname)))

/-- A mapping with one entry. -/
def single (key : Text) : Value := .map [(.str (String.ofList key), .str "x")]

theorem leadsTo_single (key : Text) : LeadsTo (single key) [.key (String.ofList key)] (.str "x") := by
  refine .entry ?_ ?_ (.here _)
  · simp [HasTextKeys, text?]
  · rw [Mapping.at?, Mapping.get?, sameKey_str, beq_self_eq_true, if_pos rfl]

/-- The key `01` is read as a position and the position `1` as a key; and a key of too many digits is not
read at all. -/
theorem lookup_digits_ne :
    (LeadsTo (single "01".toList) [.key "01"] (.str "x") ∧ IsPathOf [.key "01"] "01".toList ∧
        (single "01".toList).lookup "01".toList = .ok .absent) ∧
      (IsPathOf [.position 1] "[1]".toList ∧ (single "1".toList).lookup "[1]".toList = .ok (.str "x")) ∧
      LeadsTo (single Condition.overlong) [.key (String.ofList Condition.overlong)] (.str "x") ∧
        IsPathOf [.key (String.ofList Condition.overlong)] Condition.overlong ∧
        ∀ x, (single Condition.overlong).lookup Condition.overlong ≠ .ok x := by
  have hpart : IsPart Condition.overlong := by
    refine ⟨Condition.ne_nil_of_isTerm Condition.isTerm_overlong, fun c hc => ?_⟩
    obtain rfl := List.eq_of_mem_replicate hc
    rfl
  refine ⟨⟨leadsTo_single _, .inr (.dotted (t := []) (by decide) .done), rfl⟩,
    ⟨.inl (.bracketed .done), rfl⟩, leadsTo_single _, .inr ?_, fun x hx => ?_⟩
  · have hspells := Spells.dotted (l := .key (String.ofList Condition.overlong)) (t := [])
      (by rwa [Link.text, String.toList_ofList]) .done
    rwa [Link.text, String.toList_ofList, List.append_nil] at hspells
  · rw [lookup_eq_ok_iff, ← Condition.isReadable_iff] at hx
    exact Condition.not_isReadable_overlong hx.1

end Value

end Stencil
