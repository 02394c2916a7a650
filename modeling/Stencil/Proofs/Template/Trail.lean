import Stencil.Proofs.Template.Content

/-!
# Paths spelled from the root

A `Trail` is the path of an array that is spelled from the root: a path of names, and then, for every
loop that it goes through, the item that stands for all items and a path of names in it, as in
`groups.[0].members`.

Such a path can be taken apart again, so that the item of one array is in the path of another one
exactly where the one trail begins the other (`Trail.steps_prefix_steps`). Hence **naming the item of a loop
leaves every path alone that does not lead through the loop** (`Trail.nameItem_of_not_prefix`).
-/

namespace Stencil.Template

open Text

/-! ### Words that start nowhere -/

/-- A word that starts no path in a text. -/
def StartsNowhere (word : Text) : (previous : Option Char) → Text → Prop
  | _, [] => True
  | previous, c :: cs =>
    (startsPath previous = true → ¬ word <+: c :: cs) ∧ StartsNowhere word (some c) cs

theorem StartsNowhere.replaceStarts {word name t : Text} {previous : Option Char}
    (h : StartsNowhere word previous t) : replaceStarts word name previous 0 t = t := by
  induction t generalizing previous with
  | nil => rfl
  | cons c cs ih => rw [replaceStarts_cons h.1, ih h.2]

/-- Inside a path nothing starts. -/
theorem startsNowhere_append {word u v : Text} (hu : ∀ c ∈ u, startsPath (some c) = false)
    (hv : ∀ previous, startsPath previous = false → StartsNowhere word previous v)
    {previous : Option Char} (hprevious : startsPath previous = false) :
    StartsNowhere word previous (u ++ v) := by
  induction u generalizing previous with
  | nil => exact hv previous hprevious
  | cons c cs ih =>
    refine ⟨fun h => absurd h (by simp [hprevious]), ?_⟩
    exact ih (fun d hd => hu d (by simp [hd])) (hu c (by simp))

/-! ### Trails -/

/-- A path of names: word characters and dots. -/
def IsDotted (t : Text) : Prop := t ≠ [] ∧ ∀ c ∈ t, isWord c = true ∨ c = '.'

instance : DecidablePred IsDotted := fun t =>
  inferInstanceAs (Decidable (t ≠ [] ∧ ∀ c ∈ t, isWord c = true ∨ c = '.'))

theorem IsDotted.not_mem {t : Text} (h : IsDotted t) {c : Char} (hword : isWord c = false)
    (hdot : c ≠ '.') : c ∉ t := by
  intro hc
  rcases h.2 c hc with hw | hd
  · simp [hword] at hw
  · exact hdot hd

/-- No path starts behind a character of a path of names. -/
theorem IsDotted.startsPath {t : Text} (h : IsDotted t) : ∀ c ∈ t, startsPath (some c) = false := by
  intro c hc
  rcases h.2 c hc with hw | rfl
  · simp [Template.startsPath, hw]
  · rfl

/-- The path that leads from a first path through items that stand for all items. -/
def spelled (root : Text) : List Text → Text
  | [] => root
  | field :: fields => root ++ '.' :: '[' :: '0' :: ']' :: '.' :: spelled field fields

theorem representative_eq (array : Text) : representative array = array ++ ['.', '[', '0', ']'] := by
  simp [representative]

theorem representative_spelled_cons (root field : Text) (fields : List Text) :
    representative (spelled root (field :: fields)) =
      root ++ '.' :: '[' :: '0' :: ']' :: '.' :: representative (spelled field fields) := by
  simp [representative_eq, spelled]

/-- A text is taken apart at its first bracket. -/
private theorem eq_of_bracket_prefix {r r' x y : Text} (hr : '[' ∉ r) (hr' : '[' ∉ r')
    (h : r ++ '.' :: '[' :: x <+: r' ++ '.' :: '[' :: y) : r = r' ∧ x <+: y := by
  have front : ∀ {u : Text} (v : Text), '[' ∉ u →
      (u ++ '.' :: '[' :: v).takeWhile (· != '[') = u ++ ['.'] := by
    intro u v hu
    have hall : ∀ c ∈ u ++ ['.'], (c != '[') = true := by
      intro c hc
      have hne : c ≠ '[' := by
        rintro rfl
        simp [hu] at hc
      simpa using hne
    have hfront : (u ++ ['.'] ++ '[' :: v).takeWhile (· != '[') = _ :=
      List.takeWhile_append_of_pos hall
    simpa using hfront
  obtain ⟨z, hz⟩ := h
  have hfront := congrArg (List.takeWhile (· != '[')) hz
  rw [List.append_assoc, List.cons_append, List.cons_append, front _ hr, front _ hr'] at hfront
  obtain rfl : r = r' := List.append_cancel_right hfront
  refine ⟨rfl, z, ?_⟩
  have hrest := List.append_cancel_left ((List.append_assoc _ _ _).symm.trans hz)
  simpa using hrest

/-- Where the item of one path is at the front of the item of another one, the one path begins the
other. -/
theorem prefix_of_representative_prefix {root root' : Text} {fields fields' : List Text}
    (h : ∀ s ∈ root :: fields, IsDotted s) (h' : ∀ s ∈ root' :: fields', IsDotted s)
    (hstart : representative (spelled root fields) <+: representative (spelled root' fields')) :
    root :: fields <+: root' :: fields' := by
  have hbracket : ∀ {s : Text}, IsDotted s → '[' ∉ s := fun hs => hs.not_mem (by decide) (by decide)
  -- a name ends where the first bracket is, so the names can be compared one by one
  have expose : ∀ (r : Text) (fs : List Text), ∃ x,
      representative (spelled r fs) = r ++ '.' :: '[' :: x := by
    intro r fs
    cases fs with
    | nil => exact ⟨_, representative_eq r⟩
    | cons f fs => exact ⟨_, representative_spelled_cons r f fs⟩
  induction fields generalizing root root' fields' with
  | nil =>
    obtain ⟨y, hy⟩ := expose root' fields'
    rw [spelled, representative_eq, hy] at hstart
    obtain ⟨rfl, -⟩ := eq_of_bracket_prefix (hbracket (h root (by simp)))
      (hbracket (h' root' (by simp))) hstart
    exact List.cons_prefix_cons.mpr ⟨rfl, List.nil_prefix⟩
  | cons field fields ih =>
    have hroot := hbracket (h root (by simp))
    have hroot' := hbracket (h' root' (by simp))
    cases fields' with
    | nil =>
      rw [representative_spelled_cons, spelled, representative_eq] at hstart
      obtain ⟨-, hrest⟩ := eq_of_bracket_prefix hroot hroot' hstart
      have hlength := hrest.length_le
      simp at hlength
    | cons field' fields' =>
      rw [representative_spelled_cons, representative_spelled_cons] at hstart
      obtain ⟨rfl, hrest⟩ := eq_of_bracket_prefix hroot hroot' hstart
      simp only [List.cons_prefix_cons, true_and] at hrest
      refine List.cons_prefix_cons.mpr ⟨rfl, ih (fun s hs => h s (by simp [hs]))
        (fun s hs => h' s (by simp [hs])) hrest⟩

/-- The path of an array spelled from the root. -/
structure Trail where
  /-- The path that begins at the root. -/
  root : Text
  /-- The paths in the items of the arrays on the way. -/
  fields : List Text
  isDotted : ∀ s ∈ root :: fields, IsDotted s

namespace Trail

/-- The parts of a trail. -/
def steps (t : Trail) : List Text := t.root :: t.fields

/-- The path of the array. -/
def path (t : Trail) : Text := spelled t.root t.fields

theorem path_ne_nil (t : Trail) : t.path ≠ [] := by
  have hroot := (t.isDotted t.root (by simp)).1
  unfold path
  cases t.fields with
  | nil => exact hroot
  | cons f fs => simp [spelled]

/-- Every character of a trail is a word character or one that joins. -/
theorem mem_path {t : Trail} {c : Char} (h : c ∈ t.path) :
    isWord c = true ∨ c ∈ ['.', '[', '0', ']'] := by
  have hdotted : ∀ {s : Text}, IsDotted s → c ∈ s → isWord c = true ∨ c ∈ ['.', '[', '0', ']'] :=
    fun hs hc => (hs.2 c hc).imp_right fun hd => by simp [hd]
  have hall := t.isDotted
  unfold path at h
  generalize t.root = root at h hall
  generalize t.fields = fields at h hall
  induction fields generalizing root with
  | nil => exact hdotted (hall root (by simp)) h
  | cons f fs ih =>
    simp only [spelled, List.mem_append, List.mem_cons] at h
    rcases h with h | h | h | h | h | h | h
    · exact hdotted (hall root (by simp)) h
    · simp [h]
    · simp [h]
    · simp [h]
    · simp [h]
    · simp [h]
    · exact ih f h fun s hs => hall s (by simp [hs])

theorem not_mem_path (t : Trail) {c : Char} (hword : isWord c = false)
    (hjoin : c ∉ ['.', '[', '0', ']']) : c ∉ t.path := fun h =>
  (mem_path h).elim (by simp [hword]) hjoin

theorem not_mem_item (t : Trail) {c : Char} (hword : isWord c = false)
    (hjoin : c ∉ ['.', '[', '0', ']']) : c ∉ representative t.path := by
  rw [representative_eq, List.mem_append, not_or]
  exact ⟨t.not_mem_path hword hjoin, hjoin⟩

theorem isBare_path (t : Trail) : IsBare t.path := by
  have htag : ∀ c ∈ tagChars, isWord c = false ∧ c ∉ ['.', '[', '0', ']'] := by decide
  exact fun c hc => t.not_mem_path (htag c hc).1 (htag c hc).2

/-- **Items in paths.** The item of one array is at the front of that of another one only if the one
trail begins the other. -/
theorem steps_prefix_steps {t u : Trail} (h : representative t.path <+: representative u.path) :
    t.steps <+: u.steps :=
  prefix_of_representative_prefix t.isDotted u.isDotted h

/-- What begins like a trail begins with no bracket behind its first character. -/
private theorem not_prefix_zero (t : Trail) (v : Text) :
    ¬ representative t.path <+: '0' :: ']' :: v := by
  intro h
  obtain ⟨hne, hroot⟩ := t.isDotted t.root (by simp)
  have hbegin : t.root ++ ['.'] <+: representative t.path := by
    rw [path]
    cases t.fields with
    | nil => exact ⟨['[', '0', ']'], by simp [spelled, representative_eq]⟩
    | cons f fs =>
      rw [representative_spelled_cons]
      exact ⟨_, List.append_assoc _ _ _⟩
  have h := hbegin.trans h
  cases hr : t.root with
  | nil => exact hne hr
  | cons c cs =>
    rw [hr] at h hroot
    have hcs := (List.cons_prefix_cons.mp h).2
    cases cs with
    | nil => simp at hcs
    | cons d ds =>
      obtain rfl : d = ']' := (List.cons_prefix_cons.mp hcs).1
      rcases hroot ']' (by simp) with hw | hd
      · exact absurd hw (by decide)
      · exact absurd hd (by decide)

/-- Behind its first character no item starts in a trail. -/
private theorem startsNowhere_spelled (t : Trail) {root : Text} {fields : List Text}
    (h : ∀ s ∈ root :: fields, IsDotted s) {previous : Option Char}
    (hprevious : startsPath previous = false) :
    StartsNowhere (representative t.path) previous (representative (spelled root fields)) := by
  induction fields generalizing root previous with
  | nil =>
    rw [spelled, representative_eq]
    refine startsNowhere_append (h root (by simp)).startsPath (fun p hp => ?_) hprevious
    refine ⟨fun hs => absurd hs (by simp [hp]), fun hs => absurd hs (by decide),
      fun _ => t.not_prefix_zero _, fun hs => absurd hs (by decide), trivial⟩
  | cons field fields ih =>
    rw [representative_spelled_cons]
    refine startsNowhere_append (h root (by simp)).startsPath (fun p hp => ?_) hprevious
    refine ⟨fun hs => absurd hs (by simp [hp]), fun hs => absurd hs (by decide),
      fun _ => t.not_prefix_zero _, fun hs => absurd hs (by decide),
      fun hs => absurd hs (by decide), ?_⟩
    exact ih (fun s hs => h s (by simp [hs])) (by decide)

/-- **Other loops.** Naming the item of a loop leaves the path of an item alone that does not lead
through the loop. -/
theorem nameItem_of_not_prefix {t u : Trail} (h : ¬ t.steps <+: u.steps) (name : Text) :
    nameItem t.path name (representative u.path) = representative u.path := by
  have hwithin := t.startsNowhere_spelled u.isDotted (show startsPath (some '.') = false by decide)
  have hfront : ¬ representative t.path <+: representative u.path := fun hp =>
    h (steps_prefix_steps hp)
  refine StartsNowhere.replaceStarts ?_
  change ¬ representative t.path <+: representative (spelled u.root u.fields) at hfront
  change StartsNowhere _ _ (representative (spelled u.root u.fields))
  cases hr : representative (spelled u.root u.fields) with
  | nil => trivial
  | cons c cs =>
    rw [hr] at hfront hwithin
    exact ⟨fun _ => hfront, hwithin.2⟩

end Trail

end Stencil.Template
