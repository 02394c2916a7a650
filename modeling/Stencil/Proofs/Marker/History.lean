import Stencil.Proofs.Marker.Sample

/-!
# Histories of a registry

A registry is used again and again, by bindings and by marking samples of all kinds, with tokens of any
shape, and some of this fails. It keeps tokens and paths both ways, in two lists of pairs that are written
one after the other. Several tokens may stand for one path, and a path then knows the last one, so that the
lists do not mirror each other.

Everything that is done comes to bindings one after the other, up to the first one that fails: marking binds
the leaves of a sample in order (`map_mark`). What a registry holds is told by the bindings that have
succeeded (`Registry.Records`). Each one keeps this (`Registry.Records.bind`), and so a whole history does
(`Registry.Records.after`). From it the main statement, `history_consistent`, reads off that **after any
history tokens keep their paths, the two ways agree, tokens stand in the order of their first binding, and
what fails leaves what was bound before it.**
-/

namespace Stencil.Marker

/-! ### The leaves of a sample -/

mutual

/-- The paths of the leaves of the value at a path, in the order in which marking comes to them. -/
def leafPaths (path : String) : Value → List String
  | .element _ _ _ => []
  | .object attributes => if Value.marksElement attributes then [] else [path]
  | .list items | .tuple items => leafPathsFirst (Path.item path) items
  | .map entries => leafPathsEntries path entries
  | _ => [path]

/-- The paths of the leaves of the item that stands for all items of a list. -/
def leafPathsFirst (path : String) : List Value → List String
  | [] => []
  | v :: _ => leafPaths path v

/-- The paths of the leaves of the entries of the mapping at a path. -/
def leafPathsEntries (path : String) : List (Value × Value) → List String
  | [] => []
  | (k, v) :: rest => leafPaths (Path.join path k) v ++ leafPathsEntries path rest

end

/-- A token and the path that it is bound to. -/
abbrev Binding := String × String

/-- Binds tokens to paths, one after the other. -/
def bindAll (bindings : List Binding) : Marking Unit :=
  bindings.forM fun binding => bindToken binding.1 binding.2

/-- The bindings of leaves. -/
def tokensOf (shape : Shape) (leaves : List String) : List Binding :=
  leaves.map fun leaf => (shape.token leaf, leaf)

/-- Bindings one after the other are those of the first list and then of the second. -/
theorem bindAll_append (u v : List Binding) : bindAll (u ++ v) = (do bindAll u; bindAll v) :=
  List.forM_append

/-- Marking a leaf binds its one token. -/
theorem map_markLeaf (shape : Shape) (path : String) :
    (fun _ => ()) <$> markLeaf shape path = bindAll (tokensOf shape [path]) := by
  simp [markLeaf, bindAll, tokensOf]

mutual

/-- **Marking binds the leaves**, one after the other, and nothing else. -/
theorem map_mark (shape : Shape) (path : String) : (v : Value) →
    (fun _ => ()) <$> mark shape path v = bindAll (tokensOf shape (leafPaths path v))
  | .list items | .tuple items => by
    have hfirst := map_markFirst shape (Path.item path) items
    rw [leafPaths, ← hfirst, mark]
    simp
  | .map entries => by
    have heach := map_markEntries shape path entries
    rw [leafPaths, ← heach, mark]
    simp
  | .element _ _ _ => by
    rw [leafPaths, mark]
    rfl
  | .object attributes => by
    rw [leafPaths, mark]
    split_ifs
    · rfl
    · exact map_markLeaf shape path
  | .null | .absent | .bool _ | .int _ | .float _ | .str _ | .raw _ | .bytes _ | .date _ | .moment _
  | .set _ | .generator _ _ | .closure _ _ _ _ | .fragmentType | .helper _ => by
    simp only [leafPaths, mark]
    exact map_markLeaf shape path

theorem map_markFirst (shape : Shape) (path : String) : (items : List Value) →
    (fun _ => ()) <$> markFirst shape path items =
      bindAll (tokensOf shape (leafPathsFirst path items))
  | [] => by
    rw [leafPathsFirst, markFirst]
    rfl
  | v :: _ => by
    rw [leafPathsFirst, markFirst]
    exact map_mark shape path v

theorem map_markEntries (shape : Shape) (path : String) : (entries : List (Value × Value)) →
    (fun _ => ()) <$> markEntries shape path entries =
      bindAll (tokensOf shape (leafPathsEntries path entries))
  | [] => by
    rw [leafPathsEntries, markEntries]
    rfl
  | (k, v) :: rest => by
    have hvalue := map_mark shape (Path.join path k) v
    have hrest := map_markEntries shape path rest
    rw [leafPathsEntries, tokensOf, List.map_append, ← tokensOf, ← tokensOf, bindAll_append,
      ← hvalue, ← hrest, markEntries]
    simp

end

/-! ### Bindings that succeed -/

namespace Registry

variable {r r' : Registry}

/-- The registry with tokens put to paths, one after the other. -/
def putAll (r : Registry) (bindings : List Binding) : Registry :=
  bindings.foldl (fun r binding => r.put binding.1 binding.2) r

/-- The bindings up to the first one that fails. -/
def accepted (r : Registry) : List Binding → List Binding
  | [] => []
  | binding :: rest =>
    match r.bind binding.1 binding.2 with
    | .ok r' => binding :: r'.accepted rest
    | .error _ => []

/-- A token that is bound to another path is refused. -/
theorem bind_eq_error_iff {token path : String} {failure : Failure} :
    r.bind token path = .error failure ↔
      ∃ bound, r.pathFor? token = some bound ∧ bound ≠ path ∧
        failure = .markerCollision token bound path := by
  rw [bind]
  cases r.pathFor? token with
  | none => simp
  | some bound =>
    by_cases hsame : bound = path
    · simp [hsame]
    · simp [hsame, Ne.symm hsame, eq_comm]

variable {binding : Binding}

theorem accepted_of_ok (h : r.bind binding.1 binding.2 = .ok r') (rest : List Binding) :
    r.accepted (binding :: rest) = binding :: r'.accepted rest := by rw [accepted, h]

theorem accepted_of_error {failure : Failure} (h : r.bind binding.1 binding.2 = .error failure)
    (rest : List Binding) : r.accepted (binding :: rest) = [] := by rw [accepted, h]

theorem putAll_of_ok (h : r.bind binding.1 binding.2 = .ok r') (rest : List Binding) :
    r.putAll (binding :: rest) = r'.putAll rest := by
  rw [(eq_put_of_bind h).1]
  rfl

end Registry

/-- A binding that fails leaves the registry as it is. -/
theorem bindToken_eq_error_iff {token path : String} {r r' : Registry} {failure : Failure} :
    bindToken token path r = (.error failure, r') ↔
      r' = r ∧ ∃ bound, r.pathFor? token = some bound ∧ bound ≠ path ∧
        failure = .markerCollision token bound path := by
  rw [← Registry.bind_eq_error_iff, bindToken]
  cases hbind : r.bind token path with
  | error own =>
    constructor
    · intro h
      cases h
      exact ⟨rfl, rfl⟩
    · rintro ⟨rfl, h⟩
      cases h
      rfl
  | ok bound =>
    constructor
    · intro h
      cases h
    · rintro ⟨-, h⟩
      cases h

/-- Binding goes on with the rest if the first one succeeds, and stops where it does not. -/
theorem bindAll_cons_apply (binding : Binding) (rest : List Binding) (r : Registry) :
    bindAll (binding :: rest) r =
      match r.bind binding.1 binding.2 with
      | .ok r' => bindAll rest r'
      | .error failure => (.error failure, r) := by
  change (do bindToken binding.1 binding.2; bindAll rest : Marking Unit) r = _
  rw [bind_apply, bindToken]
  cases r.bind binding.1 binding.2 <;> rfl

/-- **Bindings one after the other.** Those in front of the first one that fails are put. -/
theorem bindAll_apply (r : Registry) (bindings : List Binding) :
    (bindAll bindings r).2 = r.putAll (r.accepted bindings) ∧
      (((bindAll bindings r).1 = .ok () ∧ r.accepted bindings = bindings) ∨
        ∃ binding rest failure, bindings = r.accepted bindings ++ binding :: rest ∧
          (bindAll bindings r).1 = .error failure ∧
          (r.putAll (r.accepted bindings)).bind binding.1 binding.2 = .error failure) := by
  induction bindings generalizing r with
  | nil => exact ⟨rfl, .inl ⟨rfl, rfl⟩⟩
  | cons binding rest ih =>
    rw [bindAll_cons_apply]
    cases hbind : r.bind binding.1 binding.2 with
    | error failure =>
      rw [Registry.accepted_of_error hbind]
      exact ⟨rfl, .inr ⟨binding, rest, failure, rfl, rfl, hbind⟩⟩
    | ok r' =>
      rw [Registry.accepted_of_ok hbind, Registry.putAll_of_ok hbind]
      dsimp only
      obtain ⟨hafter, ⟨hok, hall⟩ | ⟨next, later, failure, hsplit, herror, hrefused⟩⟩ := ih r'
      · exact ⟨hafter, .inl ⟨hok, by rw [hall]⟩⟩
      · refine ⟨hafter, .inr ⟨next, later, failure, ?_, herror, hrefused⟩⟩
        rw [List.cons_append, ← hsplit]

/-! ### What a registry records -/

/-- What a registry holds after bindings that have succeeded: every pair once, in the order of the
bindings, every token once, and a token of every path. -/
structure Registry.Records (r : Registry) (bindings : List Binding) : Prop where
  paths_eq : r.paths = bindings.eraseDups
  tokens_eq : r.paths.map Prod.fst = (bindings.map Prod.fst).eraseDups
  nodup : (r.paths.map Prod.fst).Nodup
  mem_of_tokenFor? : ∀ {path token}, r.tokenFor? path = some token → (token, path) ∈ r.paths
  exists_tokenFor? : ∀ {token path}, (token, path) ∈ r.paths → ∃ own, r.tokenFor? path = some own

namespace Registry

variable {r r' : Registry} {bindings : List Binding}

theorem records_empty : Records {} [] := ⟨rfl, rfl, List.nodup_nil, by simp [tokenFor?], by simp⟩

namespace Records

/-- A token is found with a path exactly if it is bound to it. -/
theorem pathFor?_eq_some_iff (h : r.Records bindings) {token path : String} :
    r.pathFor? token = some path ↔ (token, path) ∈ r.paths := by
  refine ⟨fun hlookup => ?_, lookup_eq_some_of_mem h.nodup⟩
  obtain ⟨before, after, hsplit, -⟩ := List.lookup_eq_some_iff.mp hlookup
  simp [hsplit]

/-- **One binding.** What succeeds is recorded, and comes last if its token is new. -/
theorem bind (h : r.Records bindings) {token path : String} (hbind : r.bind token path = .ok r') :
    r'.Records (bindings ++ [(token, path)]) := by
  have hput := (eq_put_of_bind hbind).1
  obtain ⟨hextends, hbound⟩ := extends_of_bind hbind
  have hother : ∀ {other}, other ≠ path → r'.tokenFor? other = r.tokenFor? other := fun hne => by
    rw [hput]
    exact lookup_putName_of_ne hne token r.tokens
  have hself : r'.tokenFor? path = some token := by rw [hput, tokenFor?_put_self]
  have hmem : ∀ {other own}, r'.tokenFor? other = some own → (own, other) ∈ r'.paths :=
    fun {other own} hown => by
      by_cases hsame : other = path
      · subst hsame
        obtain rfl := Option.some.inj (hself.symm.trans hown)
        exact hbound
      · rw [hother hsame] at hown
        exact hextends (h.mem_of_tokenFor? hown)
  have hexists : ∀ {own other}, other ≠ path → (own, other) ∈ r.paths →
      ∃ found, r'.tokenFor? other = some found := fun hne hown => by
    rw [hother hne]
    exact h.exists_tokenFor? hown
  rcases paths_of_bind hbind with ⟨hpaths, hold⟩ | ⟨hpaths, hnew⟩
  · -- the token is bound to the path already
    have hbefore : (token, path) ∈ bindings := by rwa [h.paths_eq, List.mem_eraseDups] at hold
    refine ⟨?_, ?_, hpaths ▸ h.nodup, hmem, fun {own other} hown => ?_⟩
    · rw [hpaths, h.paths_eq, eraseDups_concat, if_pos (List.contains_iff_mem.mpr hbefore)]
    · rw [hpaths, h.tokens_eq, List.map_append, List.map_singleton, eraseDups_concat,
        if_pos (List.contains_iff_mem.mpr (List.mem_map_of_mem hbefore))]
    · by_cases hsame : other = path
      · exact ⟨token, hsame ▸ hself⟩
      · exact hexists hsame (hpaths ▸ hown)
  · -- the token is new
    have hfirst : token ∉ bindings.map Prod.fst := by
      rwa [h.tokens_eq, List.mem_eraseDups] at hnew
    have hnone : (token, path) ∉ bindings := fun hin => hfirst (List.mem_map_of_mem hin)
    refine ⟨?_, ?_, ?_, hmem, fun {own other} hown => ?_⟩
    · rw [hpaths, h.paths_eq, eraseDups_concat, if_neg (mt List.contains_iff_mem.mp hnone)]
    · rw [hpaths, List.map_append, h.tokens_eq, List.map_append, List.map_singleton,
        eraseDups_concat, if_neg (mt List.contains_iff_mem.mp hfirst)]
    · have hconcat := h.nodup.concat hnew
      rw [List.concat_eq_append] at hconcat
      rwa [hpaths, List.map_append]
    · by_cases hsame : other = path
      · exact ⟨token, hsame ▸ hself⟩
      · rw [hpaths, List.mem_append, List.mem_singleton] at hown
        exact hexists hsame (hown.resolve_right fun heq => hsame (congrArg Prod.snd heq))

/-- Bindings one after the other, up to the first one that fails. -/
theorem accepted (h : r.Records bindings) (more : List Binding) :
    (r.putAll (r.accepted more)).Records (bindings ++ r.accepted more) := by
  induction more generalizing r bindings with
  | nil => simpa [Registry.accepted, putAll] using h
  | cons binding rest ih =>
    cases hbind : r.bind binding.1 binding.2 with
    | error failure =>
      rw [accepted_of_error hbind, List.append_nil]
      exact h
    | ok r' =>
      have hstep := ih (h.bind hbind)
      rw [accepted_of_ok hbind, putAll_of_ok hbind]
      rwa [List.append_assoc, List.singleton_append] at hstep

end Records

end Registry

/-! ### Histories -/

/-- What is done to a registry. -/
inductive Action where
  /-- A token is bound to a path. -/
  | bind (token path : String)
  /-- The sample at a path is marked. -/
  | mark (shape : Shape) (path : String) (sample : Value)

namespace Action

/-- The registry after an action, also after one that fails. -/
def run (r : Registry) : Action → Registry
  | .bind token path => (bindToken token path r).2
  | .mark shape path sample => (Marker.mark shape path sample r).2

/-- What an action is to bind, in order. -/
def bindings : Action → List Binding
  | .bind token path => [(token, path)]
  | .mark shape path sample => tokensOf shape (leafPaths path sample)

/-- An action puts the bindings that are accepted into the registry. -/
theorem run_eq (r : Registry) (action : Action) :
    action.run r = r.putAll (r.accepted action.bindings) := by
  rw [← (bindAll_apply r action.bindings).1]
  cases action with
  | bind token path =>
    have hsingle : bindAll [(token, path)] = bindToken token path := by simp [bindAll]
    rw [run, bindings, hsingle]
  | mark shape path sample => rw [run, bindings, ← map_mark, map_apply]

end Action

namespace Registry

variable {r : Registry} {bindings : List Binding}

/-- The registry after some actions, first one first. -/
def after (r : Registry) (history : List Action) : Registry := history.foldl Action.run r

/-- The bindings that succeed in a history, in order. -/
def succeeded (r : Registry) : List Action → List Binding
  | [] => []
  | action :: rest => r.accepted action.bindings ++ (action.run r).succeeded rest

/-- **A whole history.** After it the bindings that have succeeded are recorded. -/
theorem Records.after (h : r.Records bindings) (history : List Action) :
    (r.after history).Records (bindings ++ r.succeeded history) := by
  induction history generalizing r bindings with
  | nil => simpa [Registry.after, succeeded] using h
  | cons action rest ih =>
    have hstep := h.accepted action.bindings
    rw [← Action.run_eq] at hstep
    have hrest := ih hstep
    rwa [List.append_assoc] at hrest

/-- What is bound stays bound. -/
theorem Records.extends_after (h : r.Records bindings) (history : List Action) :
    r.Extends (r.after history) := by
  rw [Extends, h.paths_eq, (h.after history).paths_eq]
  exact fun binding hmem => List.mem_eraseDups.mpr (List.mem_append_left _ (List.mem_eraseDups.mp hmem))

end Registry

/-- A run of marking that fails has bound the leaves in front of the one that fails. -/
theorem exists_of_mark_eq_error {shape : Shape} {path : String} {sample : Value} {r r' : Registry}
    {failure : Failure} (h : mark shape path sample r = (.error failure, r')) :
    ∃ before leaf later, leafPaths path sample = before ++ leaf :: later ∧
      r.accepted (tokensOf shape (leafPaths path sample)) = tokensOf shape before ∧
      r' = r.putAll (tokensOf shape before) ∧
      ∃ bound, r'.pathFor? (shape.token leaf) = some bound ∧ bound ≠ leaf ∧
        failure = .markerCollision (shape.token leaf) bound leaf := by
  have hbind : bindAll (tokensOf shape (leafPaths path sample)) r = (.error failure, r') := by
    rw [← map_mark, map_apply, h]
    rfl
  obtain ⟨hafter, ⟨hok, -⟩ | ⟨binding, rest, own, hsplit, herror, hrefused⟩⟩ :=
    bindAll_apply r (tokensOf shape (leafPaths path sample))
  · rw [hbind] at hok
    cases hok
  · rw [hbind] at hafter herror
    obtain rfl : failure = own := Except.error.inj herror
    obtain ⟨before, others, hleaves, hbefore, hothers⟩ := List.map_eq_append_iff.mp hsplit
    obtain ⟨leaf, later, rfl, rfl, -⟩ := List.map_eq_cons_iff.mp hothers
    rw [← hbefore] at hafter hrefused
    refine ⟨before, leaf, later, hleaves, hbefore.symm, hafter, ?_⟩
    rw [show r' = r.putAll (tokensOf shape before) from hafter]
    exact Registry.bind_eq_error_iff.mp hrefused

/-- **Histories.** After any actions on an empty registry, successful or not:

* a bound token keeps its path, whatever comes later;
* the token of a path stands for the path, and the path of a bound token has a token;
* the pairs stand in the order in which the tokens were first bound, and are as many as the tokens;
* a binding is refused exactly if its token is bound to another path, and then changes nothing;
* marking that is refused has bound the leaves in front of the one whose token is bound to another path,
  and nothing else. -/
theorem history_consistent (history : List Action) :
    (∀ later token path, (Registry.after {} history).pathFor? token = some path →
        (Registry.after {} (history ++ later)).pathFor? token = some path) ∧
      (∀ path token, (Registry.after {} history).tokenFor? path = some token →
        (Registry.after {} history).pathFor? token = some path) ∧
      (∀ token path, (Registry.after {} history).pathFor? token = some path →
        ∃ own, (Registry.after {} history).tokenFor? path = some own) ∧
      ((Registry.after {} history).paths = (Registry.succeeded {} history).eraseDups ∧
        (Registry.after {} history).paths.map Prod.fst =
          ((Registry.succeeded {} history).map Prod.fst).eraseDups ∧
        (Registry.after {} history).size =
          ((Registry.succeeded {} history).map Prod.fst).eraseDups.length) ∧
      (∀ token path failure r', bindToken token path (Registry.after {} history) = (.error failure, r') ↔
        r' = Registry.after {} history ∧
          ∃ bound, (Registry.after {} history).pathFor? token = some bound ∧ bound ≠ path ∧
            failure = .markerCollision token bound path) ∧
      ∀ shape path sample failure r',
        mark shape path sample (Registry.after {} history) = (.error failure, r') →
        ∃ before leaf later bound, leafPaths path sample = before ++ leaf :: later ∧
          r'.paths = (Registry.succeeded {} history ++ tokensOf shape before).eraseDups ∧
          r' = (Registry.after {} history).putAll (tokensOf shape before) ∧
          r'.pathFor? (shape.token leaf) = some bound ∧ bound ≠ leaf ∧
          failure = .markerCollision (shape.token leaf) bound leaf := by
  have hrecords := Registry.records_empty.after history
  rw [List.nil_append] at hrecords
  set r := Registry.after {} history with hr
  refine ⟨fun later token path h => ?_, fun path token h => ?_, fun token path h => ?_,
    ⟨hrecords.paths_eq, hrecords.tokens_eq, ?_⟩, fun token path failure r' => bindToken_eq_error_iff,
    fun shape path sample failure r' h => ?_⟩
  · have hlater : Registry.after {} (history ++ later) = r.after later := List.foldl_append
    rw [hlater, (hrecords.after later).pathFor?_eq_some_iff]
    exact hrecords.extends_after later (hrecords.pathFor?_eq_some_iff.mp h)
  · exact hrecords.pathFor?_eq_some_iff.mpr (hrecords.mem_of_tokenFor? h)
  · exact hrecords.exists_tokenFor? (hrecords.pathFor?_eq_some_iff.mp h)
  · rw [← hrecords.tokens_eq, List.length_map, Registry.size]
  · obtain ⟨before, leaf, later, hleaves, haccepted, hafter, bound, hcollision⟩ :=
      exists_of_mark_eq_error h
    have hmarked := hrecords.accepted (tokensOf shape (leafPaths path sample))
    rw [haccepted, ← hafter] at hmarked
    exact ⟨before, leaf, later, bound, hleaves, hmarked.paths_eq, hafter, hcollision⟩

/-- A sample with two leaves that have the same token. -/
def clashing : Value :=
  .map [(.str "a_b", .int 1), (.str "c", .list [.int 2]), (.str "a b", .int 3), (.str "d", .int 4)]

/-- A history in which marking and a binding fail, and a path gets a second token. -/
def clashes : List Action :=
  [.mark {} "" clashing, .bind "__PROP_a_b__" "e", .bind "t" "c.[0]", .mark ⟨"t", ""⟩ "" .null]

theorem history_clashes :
    (mark {} "" clashing {}).1.isOk = false ∧
      (Registry.after {} clashes).paths =
        [("__PROP_a_b__", "a_b"), ("__PROP_c__0___", "c.[0]"), ("t", "c.[0]")] ∧
      (Registry.after {} clashes).tokenFor? "c.[0]" = some "t" ∧
      (Registry.after {} clashes).pathFor? "t" = some "c.[0]" := by
  obtain ⟨-, htoken, -, ⟨hpaths, -⟩, -⟩ := history_consistent clashes
  have hlast : (Registry.after {} clashes).tokenFor? "c.[0]" = some "t" := by decide +kernel
  exact ⟨by decide +kernel, hpaths.trans (by decide +kernel), hlast, htoken _ _ hlast⟩

end Stencil.Marker
