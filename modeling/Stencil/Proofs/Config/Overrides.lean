import Mathlib
import Stencil.Config.Defaults
import Stencil.Proofs.Config.Setting

/-!
# Overrides and merging

The variables of an environment are put into a configuration one after the other, each value at its path.
The same values can be nested into one mapping by their paths (`nested`) and laid over the configuration as
a layer. The two ways share no code: one walks down a path and makes room for it, the other one goes through
the entries of two mappings.

Both come to the first names of the paths. A configuration with overrides is the configuration in which the
first names are set in the order in which they come up (`foldl_eq_setEach`), and this is what merging does
with the entries of the nested mapping (`merge_names`). What is under a name is known level by level, and so
merging puts at each path the value laid over what is there (`merge_nested`).

The overrides put the values there as they are. So **the two ways agree exactly where each value, laid over
what is at its path, is this value again** (`applyEnvironment_eq_merge_iff`). They do not agree on a list
with a plus sign in front: merging adds it to a list that is there, and after the override it stands there
with its plus sign.
-/

namespace Stencil

namespace Mapping

variable {f g : String → Value} {names : List String} {name : String} {m : Mapping}

/-- A mapping in which names are set one after the other, each to its value. -/
def setEach (f : String → Value) (names : List String) (m : Mapping) : Mapping :=
  names.foldl (fun m name => m.set name (f name)) m

theorem setEach_cons (f : String → Value) (name : String) (names : List String) (m : Mapping) :
    m.setEach f (name :: names) = (m.set name (f name)).setEach f names := rfl

theorem setEach_concat (f : String → Value) (name : String) (names : List String) (m : Mapping) :
    m.setEach f (names ++ [name]) = (m.setEach f names).set name (f name) :=
  List.foldl_append

theorem setEach_congr (h : ∀ name ∈ names, f name = g name) (m : Mapping) :
    m.setEach f names = m.setEach g names := by
  induction names generalizing m with
  | nil => rfl
  | cons name rest ih =>
    obtain ⟨hfirst, hrest⟩ := List.forall_mem_cons.mp h
    rw [setEach_cons, setEach_cons, hfirst, ih hrest]

theorem at?_setEach (f : String → Value) (names : List String) (m : Mapping) (name : String) :
    (m.setEach f names).at? name = if name ∈ names then some (f name) else m.at? name := by
  induction names generalizing m with
  | nil => rfl
  | cons other rest ih =>
    rw [setEach_cons, ih]
    by_cases hrest : name ∈ rest
    · rw [if_pos hrest, if_pos (List.mem_cons_of_mem _ hrest)]
    · rw [if_neg hrest]
      by_cases hfirst : name = other
      · rw [if_pos (hfirst ▸ List.mem_cons_self), hfirst, at?_set_self]
      · rw [if_neg (by simp [hfirst, hrest]), at?_set_of_ne hfirst]

/-- A name that is there may be set before others. -/
private theorem set_setEach_of_not_mem (hm : m.at? name ≠ none) (h : name ∉ names) (v : Value) :
    (m.setEach f names).set name v = (m.set name v).setEach f names := by
  induction names generalizing m with
  | nil => rfl
  | cons other rest ih =>
    have hne : other ≠ name := fun heq => h (heq ▸ List.mem_cons_self)
    have hset : (m.set other (f other)).at? name ≠ none := by rwa [at?_set_of_ne hne.symm]
    rw [setEach_cons, setEach_cons, ih hset fun hmem => h (List.mem_cons_of_mem _ hmem),
      set_set_of_ne hm hne]

/-- One of the names may be set where it stands to the value it gets in the end. -/
theorem set_setEach_of_mem (hnodup : names.Nodup) (h : name ∈ names) (f : String → Value) (v : Value)
    (m : Mapping) :
    (m.setEach f names).set name v = m.setEach (fun n => if n = name then v else f n) names := by
  induction names generalizing m with
  | nil => cases h
  | cons first rest ih =>
    obtain ⟨hfirst, hrest⟩ := List.nodup_cons.mp hnodup
    rw [setEach_cons, setEach_cons]
    by_cases hname : first = name
    · subst hname
      have hother : ∀ n ∈ rest, f n = if n = first then v else f n := fun n hn =>
        (if_neg fun heq : n = first => hfirst (heq ▸ hn)).symm
      rw [if_pos rfl, set_setEach_of_not_mem (by simp [at?_set_self]) hfirst, set_set]
      exact setEach_congr hother _
    · rw [if_neg hname]
      exact ih hrest ((List.mem_cons.mp h).resolve_left (Ne.symm hname)) _

/-- New names come behind what is there, in their order. -/
theorem setEach_eq_append (hnodup : names.Nodup) (h : ∀ name ∈ names, m.at? name = none)
    (f : String → Value) : m.setEach f names = m ++ names.map fun name => (.str name, f name) := by
  induction names generalizing m with
  | nil => exact (List.append_nil m).symm
  | cons first rest ih =>
    obtain ⟨hfirst, hrest⟩ := List.nodup_cons.mp hnodup
    obtain ⟨hnone, hothers⟩ := List.forall_mem_cons.mp h
    have hafter : ∀ name ∈ rest, (m.set first (f first)).at? name = none := fun name hmem => by
      have hne : name ≠ first := fun heq => hfirst (heq ▸ hmem)
      rw [at?_set_of_ne hne, hothers name hmem]
    rw [setEach_cons, ih hrest hafter, set_of_at?_eq_none hnone, List.map_cons, List.append_assoc,
      List.singleton_append]

end Mapping

namespace Config

open Value

/-! ### The mapping nested from paths -/

/-- The names that paths begin with, each once, in the order in which they come up. -/
def firstNames (os : List Override) : List String := (os.filterMap (·.path.head?)).eraseDups

/-- What overrides say below a name. -/
def below (name : String) (os : List Override) : List Override :=
  os.filterMap fun o =>
    match o.path with
    | first :: rest => if first = name then some ⟨rest, o.value⟩ else none
    | [] => none

/-- What a path leads to by the rest of it: the value of the path that ends here, or else the mapping
nested from the paths that go on. -/
def valueOf (nest : List Override → Mapping) (os : List Override) : Value :=
  match os.find? (·.path.isEmpty) with
  | some o => o.value
  | none => .map (nest os)

/-- The mapping nested from paths of limited length to their values: each name that a path begins with,
and under it what the rest of these paths leads to. -/
def nestWithin : ℕ → List Override → Mapping
  | 0, _ => []
  | depth + 1, os =>
    (firstNames os).map fun name => (.str name, valueOf (nestWithin depth) (below name os))

/-- The mapping nested from the paths of overrides to their values. -/
def nested (os : List Override) : Mapping := nestWithin ((os.map (·.path.length)).max?.getD 0) os

/-- An override with its value laid over what is at its path. -/
def combined (current : Option Value) (o : Override) : Override :=
  { o with value := mergeValue (current.bind (valueAt (keysOf o.path))) o.value }

section Names

variable {os : List Override} {o : Override} {name : String}

theorem mem_firstNames_iff : name ∈ firstNames os ↔ ∃ o ∈ os, o.path.head? = some name := by
  simp [firstNames]

theorem nodup_firstNames (os : List Override) : (firstNames os).Nodup := nodup_eraseDups _

theorem firstNames_concat (h : o.path.head? = some name) (os : List Override) :
    firstNames (os ++ [o]) =
      if name ∈ firstNames os then firstNames os else firstNames os ++ [name] := by
  simp [firstNames, eraseDups_concat, h]

theorem mem_below_iff : o ∈ below name os ↔ ⟨name :: o.path, o.value⟩ ∈ os := by
  rw [below, List.mem_filterMap]
  constructor
  · rintro ⟨⟨_ | ⟨first, path⟩, value⟩, hmem, h⟩
    · cases h
    · dsimp only at h
      split at h
      · next hname =>
        obtain rfl := Option.some.inj h
        exact hname ▸ hmem
      · cases h
  · exact fun hmem => ⟨_, hmem, by simp⟩

theorem Override.Apart.below (h : os.Pairwise Override.Apart) (name : String) :
    (below name os).Pairwise Override.Apart := by
  refine h.filterMap _ fun a b hab a' ha b' hb => ?_
  rcases a with ⟨_ | ⟨first, path⟩, value⟩
  · cases ha
  rcases b with ⟨_ | ⟨first', path'⟩, value'⟩
  · cases hb
  simp only [Option.ite_none_right_eq_some, Option.some.injEq] at ha hb
  obtain ⟨⟨rfl, rfl⟩, rfl, rfl⟩ := ha, hb
  simpa [Override.Apart, List.cons_prefix_cons] using hab

theorem below_ne_nil (h : name ∈ firstNames os) : below name os ≠ [] := by
  obtain ⟨⟨path, value⟩, hmem, hhead⟩ := mem_firstNames_iff.mp h
  obtain ⟨rest, rfl⟩ := List.head?_eq_some_iff.mp hhead
  have hbelow : ⟨rest, value⟩ ∈ below name os := mem_below_iff.mpr hmem
  exact List.ne_nil_of_mem hbelow

/-- What is under a name after overrides: each one whose path begins with it puts its value below. -/
theorem at?_foldl (os : List Override) (m : Mapping) (name : String) :
    Mapping.at? name (os.foldl applyOverride m) =
      (below name os).foldl (fun current o => some (placed o.value o.path current)) (m.at? name) := by
  induction os generalizing m with
  | nil => rfl
  | cons o rest ih =>
    rw [List.foldl_cons, ih, applyOverride]
    rcases o with ⟨_ | ⟨first, path⟩, value⟩
    · rfl
    · rw [assign_cons]
      by_cases h : first = name
      · subst h
        simp [below, Mapping.at?_set_self]
      · simp [below, h, Mapping.at?_set_of_ne (Ne.symm h)]

/-- Overrides set the first names of their paths, each one in the place where it comes up first. -/
private theorem exists_setEach_eq_foldl (h : ∀ o ∈ os, o.path ≠ []) (m : Mapping) :
    ∃ f, os.foldl applyOverride m = m.setEach f (firstNames os) := by
  induction os using List.reverseRecOn with
  | nil => exact ⟨fun _ => .null, rfl⟩
  | append_singleton os o ih =>
    obtain ⟨f, hf⟩ := ih fun o ho => h o (List.mem_append_left _ ho)
    obtain ⟨name, rest, hpath⟩ := List.exists_cons_of_ne_nil (h o (by simp))
    have hhead : o.path.head? = some name := by rw [hpath, List.head?_cons]
    rw [List.foldl_concat, applyOverride, hpath, assign_cons, hf, firstNames_concat hhead]
    generalize placed o.value rest _ = v
    refine ⟨fun n => if n = name then v else f n, ?_⟩
    split
    · next hmem => exact Mapping.set_setEach_of_mem (nodup_firstNames os) hmem f v m
    · next hmem =>
      have hother : ∀ n ∈ firstNames os, f n = if n = name then v else f n := fun n hn =>
        (if_neg fun heq : n = name => hmem (heq ▸ hn)).symm
      rw [Mapping.setEach_concat, if_pos rfl]
      exact congrArg _ (Mapping.setEach_congr hother m)

/-- So a configuration with overrides is known by what is under their first names. -/
theorem foldl_eq_setEach {f : String → Value} {m : Mapping} (h : ∀ o ∈ os, o.path ≠ [])
    (hf : ∀ name ∈ firstNames os, Mapping.at? name (os.foldl applyOverride m) = some (f name)) :
    os.foldl applyOverride m = m.setEach f (firstNames os) := by
  obtain ⟨g, hg⟩ := exists_setEach_eq_foldl h m
  rw [hg]
  refine Mapping.setEach_congr (fun name hname => ?_) m
  have hfound := hf name hname
  rw [hg, Mapping.at?_setEach, if_pos hname] at hfound
  exact Option.some.inj hfound

end Names

/-! ### Merging by paths -/

section Merge

variable {os : List Override} {name : String} {m : Mapping}

@[simp] theorem mergeValue_none (v : Value) : mergeValue none v = v := by
  cases v <;> simp [mergeValue]

/-- A mapping of different names is laid over another one name by name. -/
theorem merge_names {names : List String} (hnodup : names.Nodup) (f : String → Value) (m : Mapping) :
    merge m (names.map fun name => (.str name, f name)) =
      m.setEach (fun name => mergeValue (m.at? name) (f name)) names := by
  induction names generalizing m with
  | nil => rfl
  | cons first rest ih =>
    obtain ⟨hfirst, hrest⟩ := List.nodup_cons.mp hnodup
    rw [List.map_cons, merge, ih hrest, Mapping.setEach_cons]
    refine Mapping.setEach_congr (fun name hmem => ?_) _
    have hne : name ≠ first := fun heq => hfirst (heq ▸ hmem)
    exact congrArg (mergeValue · _) (Mapping.at?_set_of_ne hne _ m)

/-- Nothing is changed by laying a nested mapping over an empty one. -/
theorem merge_nil_nestWithin (depth : ℕ) (os : List Override) :
    merge [] (nestWithin depth os) = nestWithin depth os := by
  cases depth with
  | zero => rfl
  | succ depth =>
    have hnone : ∀ name ∈ firstNames os, Mapping.at? name [] = none := fun _ _ => rfl
    rw [nestWithin, merge_names (nodup_firstNames os),
      Mapping.setEach_eq_append (nodup_firstNames os) hnone, List.nil_append]
    simp [Mapping.at?, Mapping.get?]

theorem mergeValue_nestWithin (current : Option Value) (depth : ℕ) (os : List Override) :
    mergeValue current (.map (nestWithin depth os)) =
      .map (merge (entriesOf current) (nestWithin depth os)) := by
  rcases current with _ | v
  · rw [mergeValue_none]
    exact congrArg _ (merge_nil_nestWithin depth os).symm
  · cases v with
    | map entries => simp [mergeValue, entriesOf, entries?]
    | _ => simp [mergeValue, entriesOf, entries?, merge_nil_nestWithin]

/-- What is below a name is combined with what is at this name. -/
theorem below_combined (name : String) (os : List Override) (m : Mapping) :
    below name (os.map (combined (some (.map m)))) = (below name os).map (combined (m.at? name)) := by
  induction os with
  | nil => rfl
  | cons o rest ih =>
    rcases o with ⟨_ | ⟨first, path⟩, value⟩
    · exact ih
    · by_cases h : first = name
      · subst h
        have hvalue : valueAt (keysOf (first :: path)) (.map m) =
          (m.at? first).bind (valueAt (keysOf path)) := rfl
        simpa [below, combined, hvalue] using ih
      · simpa [below, combined, h] using ih

theorem firstNames_combined (current : Option Value) (os : List Override) :
    firstNames (os.map (combined current)) = firstNames os := by
  simp [firstNames, List.filterMap_map, combined, Function.comp_def]

/-- A path goes through what is no mapping as through an empty one. -/
theorem combined_entriesOf {o : Override} (h : o.path ≠ []) (current : Option Value) :
    combined (some (.map (entriesOf current))) o = combined current o := by
  obtain ⟨name, rest, hpath⟩ := List.exists_cons_of_ne_nil h
  have hfound : (some (Value.map (entriesOf current))).bind (valueAt (keysOf o.path)) =
      current.bind (valueAt (keysOf o.path)) := by
    rw [hpath]
    exact valueAt_entriesOf current _ _
  rw [combined, combined, hfound]

/-- Paths that all go on put their values into one mapping. -/
theorem foldl_placed (hos : os ≠ []) (h : ∀ o ∈ os, o.path ≠ []) (current : Option Value) :
    os.foldl (fun current o => some (placed o.value o.path current)) current =
      some (.map (os.foldl applyOverride (entriesOf current))) := by
  induction os generalizing current with
  | nil => exact absurd rfl hos
  | cons o rest ih =>
    obtain ⟨hfirst, hrest⟩ := List.forall_mem_cons.mp h
    obtain ⟨name, path, hpath⟩ := List.exists_cons_of_ne_nil hfirst
    have hplaced : placed o.value o.path current = .map (applyOverride (entriesOf current) o) := by
      rw [hpath, placed, applyOverride, hpath]
    rw [List.foldl_cons, List.foldl_cons, hplaced]
    rcases eq_or_ne rest [] with rfl | hne
    · rfl
    · exact ih hne hrest _

/-- A path that ends stands apart from no other. -/
private theorem eq_singleton_of_path_eq_nil {o : Override} (hapart : os.Pairwise Override.Apart)
    (ho : o ∈ os) (hpath : o.path = []) : os = [o] := by
  have hbegins : ∀ p, o.path <+: p := fun p => hpath ▸ List.nil_prefix
  obtain ⟨before, after, rfl⟩ := List.append_of_mem ho
  obtain ⟨-, hafter, hbefore⟩ := List.pairwise_append.mp hapart
  obtain rfl : before = [] := List.eq_nil_iff_forall_not_mem.mpr fun b hb =>
    (hbefore b hb o List.mem_cons_self).2 (hbegins _)
  obtain rfl : after = [] := List.eq_nil_iff_forall_not_mem.mpr fun a ha =>
    ((List.pairwise_cons.mp hafter).1 a ha).1 (hbegins _)
  rfl

/-- What comes to be under a name is what its paths lead to, laid over what is there, if this holds of the
paths that go on. -/
private theorem foldl_placed_combined {depth : ℕ} (hapart : os.Pairwise Override.Apart) (hos : os ≠ [])
    (current : Option Value)
    (hmerge : (∀ o ∈ os, o.path ≠ []) → ∀ m, merge m (nestWithin depth os) =
      (os.map (combined (some (.map m)))).foldl applyOverride m) :
    (os.map (combined current)).foldl (fun current o => some (placed o.value o.path current)) current =
      some (mergeValue current (valueOf (nestWithin depth) os)) := by
  rw [valueOf]
  cases hfind : os.find? (·.path.isEmpty) with
  | some o =>
    have hend : o.path = [] := by simpa using List.find?_some hfind
    rw [eq_singleton_of_path_eq_nil hapart (List.mem_of_find?_eq_some hfind) hend]
    cases current <;> simp [combined, placed, hend, keysOf, valueAt]
  | none =>
    have hgo : ∀ o ∈ os, o.path ≠ [] := by simpa using hfind
    have hcombined : os.map (combined current) =
        os.map (combined (some (.map (entriesOf current)))) :=
      List.map_congr_left fun o ho => (combined_entriesOf (hgo o ho) current).symm
    rw [mergeValue_nestWithin, hmerge hgo, hcombined]
    exact foldl_placed (by simpa using hos) (by simpa [combined] using hgo) current

/-- **Merging by paths.** To lay the nested mapping over a configuration is to lay each value over what is
at its path, and to put the results there. -/
theorem merge_nestWithin {depth : ℕ} (hdepth : ∀ o ∈ os, o.path.length ≤ depth)
    (hpath : ∀ o ∈ os, o.path ≠ []) (hapart : os.Pairwise Override.Apart) (m : Mapping) :
    merge m (nestWithin depth os) =
      (os.map (combined (some (.map m)))).foldl applyOverride m := by
  induction depth generalizing os m with
  | zero =>
    obtain rfl : os = [] := List.eq_nil_iff_forall_not_mem.mpr fun o ho =>
      hpath o ho (List.length_eq_zero_iff.mp (Nat.le_zero.mp (hdepth o ho)))
    rfl
  | succ depth ih =>
    have hpath' : ∀ o ∈ os.map (combined (some (.map m))), o.path ≠ [] := by
      simpa [combined] using hpath
    rw [nestWithin, merge_names (nodup_firstNames os), ← firstNames_combined (some (.map m)),
      foldl_eq_setEach hpath']
    intro name hname
    rw [firstNames_combined] at hname
    rw [at?_foldl, below_combined]
    refine foldl_placed_combined (Override.Apart.below hapart name) (below_ne_nil hname) _ fun hgo m =>
      ih (fun o ho => ?_) hgo (Override.Apart.below hapart name) m
    exact Nat.le_of_succ_le_succ (hdepth _ (mem_below_iff.mp ho))

theorem merge_nested (hpath : ∀ o ∈ os, o.path ≠ []) (hapart : os.Pairwise Override.Apart)
    (m : Mapping) :
    merge m (nested os) = (os.map (combined (some (.map m)))).foldl applyOverride m :=
  merge_nestWithin (fun o ho => List.le_max?_getD_of_mem (List.mem_map.mpr ⟨o, ho, rfl⟩)) hpath hapart m

end Merge

/-! ### Overrides of an environment -/

/-- Whether a value laid over another one does not simply replace it: a mapping over a mapping, or a list
with a plus sign in front over a list. -/
def Combines (current : Option Value) : Value → Prop
  | .map _ => ∃ base, current = some (.map base)
  | .list (first :: _) => isPlus first = true ∧ ∃ base, current = some (.list base)
  | _ => False

theorem mergeValue_of_not_combines {current : Option Value} {v : Value} (h : ¬ Combines current v) :
    mergeValue current v = v := by
  cases v with
  | map entries =>
    rcases current with _ | current
    · rfl
    · cases current with
      | map base => exact absurd ⟨base, rfl⟩ h
      | _ => rfl
  | list items =>
    rcases current with _ | current
    · rfl
    · cases current with
      | list base =>
        cases items with
        | nil => rfl
        | cons first rest =>
          have hplus : isPlus first = false := by
            simpa using fun hplus => h ⟨hplus, base, rfl⟩
          rw [mergeValue, mergeLists_of_not_isPlus base rest hplus]
      | _ => rfl
  | _ => rfl

/-- Work on a list succeeds if the work on each item does. -/
theorem mapM_eq_ok_iff {α β : Type} {f : α → Except Failure β} {l : List α} {out : List β} :
    l.mapM f = .ok out ↔ l.map f = out.map .ok := by
  induction l generalizing out with
  | nil => cases out <;> simp [pure, Except.pure]
  | cons a l ih =>
    rw [List.mapM_cons, List.map_cons]
    cases f a with
    | error failure => cases out <;> simp [bind, Except.bind]
    | ok b =>
      cases out with
      | nil => cases l.mapM f <;> simp [bind, Except.bind, pure, Except.pure]
      | cons c rest =>
        rw [List.map_cons, List.cons.injEq, ← ih]
        cases l.mapM f <;> simp [bind, Except.bind, pure, Except.pure]

private theorem path_ne_nil_of_overrideOf {name text : String} {o : Override}
    (h : overrideOf name text = .ok (some o)) : o.path ≠ [] := by
  unfold overrideOf at h
  split at h
  · cases h
  · split at h
    · cases h
    · dsimp only at h
      split at h
      · cases h
      · cases hvalue : coerce text.toList with
        | error failure => simp [hvalue, bind, Except.bind] at h
        | ok value =>
          obtain rfl := by simpa [hvalue, bind, Except.bind, pure, Except.pure] using h
          simpa [Text.splitAt] using Text.fieldsOf_ne_nil _

/-- The overrides of an environment are those of its variables in the order of their names. -/
theorem overrides_eq_ok_iff {environment : Environment} {os : List Override} :
    overrides environment = .ok os ↔
      ∃ all : List (Option Override),
        (sortedVariables environment).map (fun entry => overrideOf entry.1 entry.2) = all.map .ok ∧
          all.filterMap id = os := by
  simp only [← mapM_eq_ok_iff]
  cases hall : (sortedVariables environment).mapM fun entry => overrideOf entry.1 entry.2 with
  | error failure => simp [overrides, hall, bind, Except.bind]
  | ok all => simp [overrides, hall, bind, Except.bind, pure, Except.pure]

/-- Every override of an environment has a path. -/
theorem path_ne_nil_of_overrides {environment : Environment} {os : List Override}
    (h : overrides environment = .ok os) : ∀ o ∈ os, o.path ≠ [] := by
  obtain ⟨all, hall, rfl⟩ := overrides_eq_ok_iff.mp h
  intro o ho
  have hmem : some o ∈ all := by simpa using ho
  have hmade : .ok (some o) ∈ (sortedVariables environment).map fun entry =>
    overrideOf entry.1 entry.2 := hall ▸ List.mem_map_of_mem hmem
  obtain ⟨entry, -, hoverride⟩ := List.mem_map.mp hmade
  exact path_ne_nil_of_overrideOf hoverride

/-- The overrides of variables given in the order of their names. -/
theorem overrides_eq {environment : Environment} {os : List Override}
    (hsorted : environment.Pairwise fun a b => a.1 ≤ b.1)
    (h : environment.map (fun entry => overrideOf entry.1 entry.2) = os.map (.ok ∘ some)) :
    overrides environment = .ok os := by
  have hsame : sortedVariables environment = environment :=
    List.mergeSort_of_pairwise (hsorted.imp fun hle => decide_eq_true hle)
  exact overrides_eq_ok_iff.mpr ⟨os.map some, by rw [hsame, h, List.map_map], by simp⟩

theorem overrideOf_eq {name text : String} {rest : Text} {path : List String} {v : Value}
    (hname : Text.after? variablePrefix name.toList = some rest) (hroot : rest ≠ projectRootName)
    (hparts : (Text.splitAt ['_', '_'] rest).any (·.isEmpty) = false)
    (hpath : (Text.splitAt ['_', '_'] rest).map (fun part => String.ofList (Text.lower part)) = path)
    (hvalue : coerce text.toList = .ok v) : overrideOf name text = .ok (some ⟨path, v⟩) := by
  rw [overrideOf, hname, ← hpath]
  simp [hroot, hparts, hvalue, bind, Except.bind, pure, Except.pure]

theorem coerce_eq_true {t : Text} (h : Text.lower (Text.trim t) = "true".toList) :
    coerce t = .ok (.bool true) := if_pos h

theorem coerce_eq_false {t : Text} (h : Text.lower (Text.trim t) = "false".toList) :
    coerce t = .ok (.bool false) := by
  have hne : ¬ Text.lower (Text.trim t) = "true".toList := by
    rw [h]
    decide
  exact (if_neg hne).trans (if_pos h)

theorem applyEnvironment_eq {environment : Environment} {os : List Override}
    (h : overrides environment = .ok os) (config : Mapping) :
    applyEnvironment environment config = .ok (os.foldl applyOverride config) := by
  rw [applyEnvironment, h]
  rfl

/-- **Overrides and merging.** The overrides of an environment, whose paths do not begin with each other,
make of a configuration what merging makes of it if and only if every value laid over what is at its path
is this value again. So they do where no value is a mapping over a mapping, or a list with a plus sign in
front over a list, since they put each value there as it is. -/
theorem applyEnvironment_eq_merge_iff {environment : Environment} {os : List Override}
    (h : overrides environment = .ok os) (hapart : os.Pairwise Override.Apart) (config : Mapping) :
    ∃ result, applyEnvironment environment config = .ok result ∧
      (result = merge config (nested os) ↔
        ∀ o ∈ os, mergeValue (valueAt (keysOf o.path) (.map config)) o.value = o.value) ∧
      (SameSettings (.map result) (.map (merge config (nested os))) ↔
        ∀ o ∈ os,
          SameSettings (mergeValue (valueAt (keysOf o.path) (.map config)) o.value) o.value) ∧
      ((∀ o ∈ os, ¬ Combines (valueAt (keysOf o.path) (.map config)) o.value) →
        result = merge config (nested os)) := by
  have hpath := path_ne_nil_of_overrides h
  have hmerge := merge_nested hpath hapart config
  have hapart' : (os.map (combined (some (.map config)))).Pairwise Override.Apart :=
    List.pairwise_map.mpr hapart
  -- below each path is the value of the override, or what it is combined to
  have hput : ∀ o ∈ os, ∀ q, valueAt (keysOf o.path ++ q) (.map (os.foldl applyOverride config)) =
      valueAt q o.value := fun o ho =>
    valueAt_foldl_of_mem hapart ho (hpath o ho) (map_text?_keysOf o.path) config
  have hlaid : ∀ o ∈ os, ∀ q, valueAt (keysOf o.path ++ q) (.map (merge config (nested os))) =
      valueAt q (mergeValue (valueAt (keysOf o.path) (.map config)) o.value) := fun o ho =>
    hmerge ▸ valueAt_foldl_of_mem hapart' (List.mem_map_of_mem ho) (hpath o ho)
      (map_text?_keysOf o.path) config
  have heq : (∀ o ∈ os, mergeValue (valueAt (keysOf o.path) (.map config)) o.value = o.value) →
      os.foldl applyOverride config = merge config (nested os) := fun hsame => by
    have hid : ∀ o ∈ os, combined (some (.map config)) o = o := fun o ho => by
      rw [combined, Option.bind_some, hsame o ho]
    rw [hmerge, List.map_congr_left hid, List.map_id']
  refine ⟨_, applyEnvironment_eq h config, ⟨fun hresult o ho => ?_, heq⟩,
    ⟨fun hsame o ho q => ?_, fun hsame => ?_⟩,
    fun hno => heq fun o ho => mergeValue_of_not_combines (hno o ho)⟩
  · have hvalue := hput o ho []
    rw [hresult, hlaid o ho] at hvalue
    exact Option.some.inj hvalue
  · have hfound := hsame (keysOf o.path ++ q)
    rw [settingAt, settingAt, hput o ho, hlaid o ho] at hfound
    exact hfound.symm
  · have hfold : SameSettings (.map ((os.map fun o => o).foldl applyOverride config))
        (.map ((os.map (combined (some (.map config)))).foldl applyOverride config)) :=
      SameSettings.foldl (fun o ho q => (hsame o ho q).symm) config
    rwa [List.map_id', ← hmerge] at hfold

theorem overrideOf_strict :
    overrideOf "HANDLEBARIZE_MARKERS__STRICT" "true" = .ok (some ⟨["markers", "strict"], .bool true⟩) := by
  have hname : Text.after? variablePrefix "HANDLEBARIZE_MARKERS__STRICT".toList =
    some "MARKERS__STRICT".toList := by decide +kernel
  exact overrideOf_eq hname (by decide +kernel) (by decide +kernel) (by decide +kernel)
    (coerce_eq_true (by decide +kernel))

/-- Two variables for settings of the default configuration. -/
def strictEnvironment : Environment :=
  [("HANDLEBARIZE_CLEANUP__STRIP_COMMENTS", "false"), ("HANDLEBARIZE_MARKERS__STRICT", "true")]

/-- What they override. -/
def strictOverrides : List Override :=
  [⟨["cleanup", "strip_comments"], .bool false⟩, ⟨["markers", "strict"], .bool true⟩]

theorem overrides_strict : overrides strictEnvironment = .ok strictOverrides := by
  have hname : Text.after? variablePrefix "HANDLEBARIZE_CLEANUP__STRIP_COMMENTS".toList =
    some "CLEANUP__STRIP_COMMENTS".toList := by decide +kernel
  have hcomments : overrideOf "HANDLEBARIZE_CLEANUP__STRIP_COMMENTS" "false" =
      .ok (some ⟨["cleanup", "strip_comments"], .bool false⟩) :=
    overrideOf_eq hname (by decide +kernel) (by decide +kernel) (by decide +kernel)
      (coerce_eq_false (by decide +kernel))
  refine overrides_eq (by decide +kernel) ?_
  rw [strictEnvironment, List.map_cons, List.map_cons, hcomments, overrideOf_strict]
  rfl

/-- For example, the two variables make of the default configuration what merging makes of it. -/
theorem applyEnvironment_eq_merge_strict :
    overrides strictEnvironment = .ok strictOverrides ∧ strictOverrides.Pairwise Override.Apart ∧
      applyEnvironment strictEnvironment defaults = .ok (merge defaults (nested strictOverrides)) := by
  have hapart : strictOverrides.Pairwise Override.Apart := by
    simp [strictOverrides, Override.Apart, List.cons_prefix_cons]
  obtain ⟨result, hresult, -, -, hsame⟩ :=
    applyEnvironment_eq_merge_iff overrides_strict hapart defaults
  refine ⟨overrides_strict, hapart, hresult.trans (congrArg _ (hsame ?_))⟩
  simp [strictOverrides, Combines]

/-- A variable for a list with a plus sign in front. -/
def attributesEnvironment : Environment :=
  [("HANDLEBARIZE_CLEANUP__STRIP_ATTRIBUTES", "[\"+\", \"data-test\"]")]

/-- What it overrides. -/
def attributesOverrides : List Override :=
  [⟨["cleanup", "strip_attributes"], texts ["+", "data-test"]⟩]

/-- A configuration with a list in this place. -/
def attributesConfig : Mapping :=
  ofNames [("cleanup", .map (ofNames [("strip_attributes", texts ["data-id"])]))]

/-- A list with a plus sign in front replaces the list that is there, and merging adds its items to it. -/
theorem applyEnvironment_ne_merge :
    overrides attributesEnvironment = .ok attributesOverrides ∧
      attributesOverrides.Pairwise Override.Apart ∧
      ∃ result, applyEnvironment attributesEnvironment attributesConfig = .ok result ∧
        valueAt (keysOf ["cleanup", "strip_attributes"]) (.map result) =
          some (texts ["+", "data-test"]) ∧
        valueAt (keysOf ["cleanup", "strip_attributes"])
            (.map (merge attributesConfig (nested attributesOverrides))) =
          some (texts ["data-id", "data-test"]) ∧
        ¬ SameSettings (.map result) (.map (merge attributesConfig (nested attributesOverrides))) := by
  have hname : Text.after? variablePrefix "HANDLEBARIZE_CLEANUP__STRIP_ATTRIBUTES".toList =
    some "CLEANUP__STRIP_ATTRIBUTES".toList := by decide +kernel
  have hattributes : overrideOf "HANDLEBARIZE_CLEANUP__STRIP_ATTRIBUTES" "[\"+\", \"data-test\"]" =
      .ok (some ⟨["cleanup", "strip_attributes"], texts ["+", "data-test"]⟩) :=
    overrideOf_eq hname (by decide +kernel) (by decide +kernel) (by decide +kernel) (by cbv)
  have hoverrides : overrides attributesEnvironment = .ok attributesOverrides := by
    refine overrides_eq (by decide +kernel) ?_
    rw [attributesEnvironment, List.map_cons, hattributes]
    rfl
  have hresult : valueAt (keysOf ["cleanup", "strip_attributes"])
      (.map (attributesOverrides.foldl applyOverride attributesConfig)) =
    some (texts ["+", "data-test"]) := rfl
  have hmerged : valueAt (keysOf ["cleanup", "strip_attributes"])
      (.map (merge attributesConfig (nested attributesOverrides))) =
    some (texts ["data-id", "data-test"]) := rfl
  refine ⟨hoverrides, List.pairwise_singleton _ _, _, applyEnvironment_eq hoverrides attributesConfig,
    hresult, hmerged, fun hsame => ?_⟩
  have hfound := hsame (keysOf ["cleanup", "strip_attributes"])
  rw [settingAt, settingAt, hresult, hmerged] at hfound
  simp [texts, Setting.of] at hfound

end Config

end Stencil
