import Stencil.Proofs.Marker.Ways

/-!
# Leaves with one token

A leaf gets its token in two steps: its way becomes a text, and what may not stand in a token becomes
underscores. Two leaves whose texts are different and whose tokens would be the same are refused. That
is of no help where two ways become one text in the first step: then both leaves get the token of this
text, and it is bound once.

The main statement is `leaves_eq_iff`: **two leaves of a marked copy are the same token exactly if their
ways are written as one text**, the keys and positions with dots between them, without empty keys in front.
Ways without dots in their keys that do not begin with an empty key are told apart by their texts. Other
keys can be taken for several steps, and leaves at different places become one (`mark_dotted_eq`).
-/

namespace Stencil.Marker

open Text

variable {v w w' : Value} {p q : Path}

/-! ### The text of a way -/

/-- The text of one step, which goes to the first item of a list. -/
def segmentText : Segment → Text
  | .key name => name.toList
  | .index _ => "[0]".toList

/-- The text of a way from the root. -/
def wayText (p : Path) : Text :=
  joinWith ['.'] ((p.dropWhile (· == .key "")).map segmentText)

theorem joinWith_segmentText (s : Segment) (p : Path) :
    joinWith ['.'] ((s :: p).map segmentText) = segmentText s ++ stepsText p := by
  induction p generalizing s with
  | nil => simp [joinWith, stepsText]
  | cons next p ih =>
    rw [List.map_cons, joinWith_cons_of_ne_nil (by simp), ih next]
    cases next <;> simp [segmentText, stepsText]

/-- **Marking writes the text of a way.** -/
theorem toList_pathTo_empty (p : Path) : (pathTo "" p).toList = wayText p := by
  induction p with
  | nil => rfl
  | cons s p ih =>
    by_cases hempty : s = .key ""
    · subst hempty
      have hjoin : pathTo "" (.key "" :: p) = pathTo "" p := by
        simp [pathTo, Path.join, Value.displayString]
      rw [hjoin, ih, wayText, wayText, List.dropWhile_cons_of_pos (by simp)]
    · rw [wayText, List.dropWhile_cons_of_neg (by simpa using hempty), joinWith_segmentText]
      cases s with
      | key name =>
        have hname : name.toList ≠ [] := by simpa using hempty
        exact toList_pathTo_root hname p
      | index i =>
        have hitem : Path.item "" = "[0]" := rfl
        rw [pathTo, hitem, toList_pathTo (by decide)]
        rfl

/-- Steps without dots are told apart in a text. -/
theorem map_segmentText_eq (hp : ∀ s ∈ p, '.' ∉ segmentText s) (hq : ∀ s ∈ q, '.' ∉ segmentText s)
    (hpne : p ≠ []) (hqne : q ≠ []) (hphead : p.head? ≠ some (.key ""))
    (hqhead : q.head? ≠ some (.key "")) (h : wayText p = wayText q) :
    p.map segmentText = q.map segmentText := by
  have hsplit : ∀ {p : Path}, (∀ s ∈ p, '.' ∉ segmentText s) → p ≠ [] → p.head? ≠ some (.key "") →
      splitAt ['.'] (wayText p) = p.map segmentText := fun {p} hdots hne hhead => by
    have hdrop : p.dropWhile (· == .key "") = p := by
      cases p with
      | nil => rfl
      | cons s p =>
        rw [List.dropWhile_cons_of_neg]
        simpa using hhead
    rw [wayText, hdrop, splitAt_joinWith (by simp) (by simpa using hne)]
    intro t ht c hc hmem
    obtain ⟨s, hs, rfl⟩ := List.mem_map.mp ht
    obtain rfl : c = '.' := by simpa using hmem
    exact hdots s hs hc
  rw [← hsplit hp hpne hphead, h, hsplit hq hqne hqhead]

/-! ### Ways to leaves -/

namespace WayTo

/-- From a leaf there is no way on. -/
theorem eq_nil_of_isLeaf (h : WayTo v p w) (hv : isLeaf v = true) : p = [] := by
  cases h with
  | here => rfl
  | entry => cases hv
  | first items => simp [items?_of_isLeaf hv] at items

theorem leafAt (h : WayTo v p w) (hw : isLeaf w = true) : LeafAt v p w := by
  induction h with
  | here => exact .here hw
  | entry found next ih =>
    obtain ⟨k, hmem, hkey⟩ := Mapping.exists_mem_of_at? found
    exact .entry hmem hkey (ih hw)
  | first items next ih => exact .item items rfl (ih hw)

/-- Ways to leaves with the same texts of their steps are the same. -/
theorem eq_of_map_segmentText (h : WayTo v p w) (hw : isLeaf w = true) (h' : WayTo v q w')
    (hw' : isLeaf w' = true) (hsame : p.map segmentText = q.map segmentText) : p = q := by
  induction h generalizing q with
  | here => exact (h'.eq_nil_of_isLeaf hw).symm
  | @entry entries name v w p found next ih =>
    cases h' with
    | here => cases hw'
    | @entry _ other v' _ q found' next' =>
      obtain ⟨hname, hrest⟩ := List.cons.inj hsame
      obtain rfl : name = other := String.toList_inj.mp hname
      obtain rfl := Option.some.inj (found.symm.trans found')
      rw [ih hw next' hrest]
    | first items => cases items
  | @first v item w rest p items next ih =>
    cases h' with
    | here => simp [items?_of_isLeaf hw'] at items
    | entry => cases items
    | @first _ item' _ _ q items' next' =>
      obtain ⟨rfl, -⟩ := List.cons.inj (Option.some.inj (items.symm.trans items'))
      rw [ih hw next' (List.cons.inj hsame).2]

end WayTo

/-! ### Tokens -/

/-- **Leaves with one token.** Two leaves of the copy that is made with an empty registry are the same
exactly if their ways are written as one text. Ways whose keys have no dots, and that do not begin with
an empty key, are not, unless they are the same. -/
theorem leaves_eq_iff {shape : Shape} {sample copy leaf leaf' : Value} {r : Registry}
    (hmark : mark shape "" sample {} = (.ok copy, r)) (hp : WayTo copy p leaf)
    (hleaf : isLeaf leaf = true) (hq : WayTo copy q leaf') (hleaf' : isLeaf leaf' = true) :
    (leaf = leaf' ↔ wayText p = wayText q) ∧
      ((∀ s ∈ p ++ q, '.' ∉ segmentText s) → p.head? ≠ some (.key "") → q.head? ≠ some (.key "") →
        p ≠ q → leaf ≠ leaf') := by
  have hrun := marks_of_mark "" sample hmark
  have hsound := hrun.grows.2 (Registry.isSound_empty shape)
  obtain ⟨rfl, -, hmem⟩ := hrun.mem_of_leafAt_copy (hp.leafAt hleaf)
  obtain ⟨rfl, -, hmem'⟩ := hrun.mem_of_leafAt_copy (hq.leafAt hleaf')
  have hiff : Value.str (shape.token (pathTo "" p)) = .str (shape.token (pathTo "" q)) ↔
      wayText p = wayText q := by
    rw [← toList_pathTo_empty, ← toList_pathTo_empty, String.toList_inj]
    constructor
    · intro hsame
      obtain hsame : shape.token (pathTo "" p) = shape.token (pathTo "" q) := by simpa using hsame
      -- the token is bound once
      rw [hsame] at hmem
      exact Option.some.inj ((hsound.pathFor?_of_mem hmem).symm.trans (hsound.pathFor?_of_mem hmem'))
    · intro hsame
      rw [hsame]
  refine ⟨hiff, fun hdots hphead hqhead hne hsame => hne ?_⟩
  rcases eq_or_ne p [] with rfl | hpne
  · cases hp
    exact (hq.eq_nil_of_isLeaf hleaf).symm
  rcases eq_or_ne q [] with rfl | hqne
  · cases hq
    exact hp.eq_nil_of_isLeaf hleaf'
  have hmap := map_segmentText_eq (fun s hs => hdots s (List.mem_append_left q hs))
    (fun s hs => hdots s (List.mem_append_right p hs)) hpne hqne hphead hqhead (hiff.mp hsame)
  exact hp.eq_of_map_segmentText hleaf hq hleaf' hmap

/-- A sample with a key that is written like a position. -/
def bracketed : Value :=
  .map [(.str "a", .map [(.str "[0]", .int 1), (.str "", .int 2)]), (.str "b", .list [.tuple [.int 3]])]

/-- Its marked copy. -/
def markedBracketed : Value :=
  .map [(.str "a", .map [(.str "[0]", .str "__PROP_a__0___"), (.str "", .str "__PROP_a___")]),
    (.str "b", .list [.list [.str "__PROP_b__0___0___"]])]

theorem leaves_bracketed :
    ∃ r, mark {} "" bracketed {} = (.ok markedBracketed, r) ∧
      WayTo markedBracketed [.key "a", .key "[0]"] (.str "__PROP_a__0___") ∧
      WayTo markedBracketed [.key "a", .key ""] (.str "__PROP_a___") ∧
      wayText [.key "a", .key "[0]"] ≠ wayText [.key "a", .key ""] ∧
      (Value.str "__PROP_a__0___") ≠ .str "__PROP_a___" := by
  have hmark : mark {} "" bracketed {} = (.ok markedBracketed, _) := rfl
  have hp : WayTo markedBracketed [.key "a", .key "[0]"] (.str "__PROP_a__0___") :=
    .entry rfl (.entry rfl (.here _))
  have hq : WayTo markedBracketed [.key "a", .key ""] (.str "__PROP_a___") :=
    .entry rfl (.entry rfl (.here _))
  obtain ⟨hiff, hne⟩ := leaves_eq_iff hmark hp rfl hq rfl
  have hleaves := hne (by decide) (by decide) (by decide) (by decide)
  exact ⟨_, hmark, hp, hq, mt hiff.mpr hleaves, hleaves⟩

/-- A sample with a key that is written like two steps. -/
def dotted : Value := .map [(.str "a", .map [(.str "b", .int 1)]), (.str "a.b", .int 2)]

/-- **Two leaves become one.** Marking succeeds, and different ways lead to the same token. -/
theorem mark_dotted_eq :
    ∃ copy r, mark {} "" dotted {} = (.ok copy, r) ∧
      WayTo copy [.key "a", .key "b"] (.str "__PROP_a_b__") ∧
      WayTo copy [.key "a.b"] (.str "__PROP_a_b__") ∧ ([.key "a", .key "b"] : Path) ≠ [.key "a.b"] :=
  ⟨_, _, rfl, .entry rfl (.entry rfl (.here _)), .entry rfl (.here _), by decide⟩

end Stencil.Marker
