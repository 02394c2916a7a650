import Stencil.Proofs.Render.Preview

/-!
# Paths that leave the item, previewed and in templates

A path inside a loop that does not begin with a word for the item of this loop is kept as it is in the
template. A preview looks it up in the data that the whole tree is shown for; in the template it belongs to
the innermost loop further out that has its first name, and to the current item if there is none. This is
`denotes_stray`, and `denotes_stray_ne` is what comes of it.
-/

namespace Stencil.Render

open Text Template Component

/-- A preview looks up a path that leaves the item in the data. -/
theorem resolve_scopedData {entries : Mapping} {l : LoopScope} {item : Value} {itemVar : Option String}
    (current : l.current = .ok item) (hvar : l.itemVar = nameValue itemVar) {path : Text}
    (hpath : IsNamePath path)
    (hstray : ¬ IsOwnWord (itemVar.map String.toList) (firstName path).1) :
    ({ data := .map entries, loop := some l } : Context).scopedData.map (Value.resolve path) =
      .ok ((Value.map entries).resolve path) := by
  by_cases hitem : item = .absent
  · simp only [Context.scopedData, current, hitem]
    rfl
  · have hfound : ∀ a, ¬ IsOwnWord (itemVar.map String.toList) a →
        Mapping.at? (String.ofList a) (withItem entries (nameValue itemVar) item) =
          Mapping.at? (String.ofList a) entries := fun a ha =>
      at?_withItem_of_ne entries item (mt isItemWord_iff.mp ha)
    rw [scopedData_of_current current hitem hvar none, Except.map]
    refine congrArg Except.ok ?_
    rcases IsNamePath.firstName_cases hpath with ⟨ha, hfirst⟩ | ⟨a, t, rfl, ha, -, hfirst⟩
    · rw [hfirst] at hstray
      rw [resolve_name ha, resolve_name ha, hfound path hstray]
    · rw [hfirst] at hstray
      rw [resolve_field ha, resolve_field ha, hfound a hstray]

/-- **Paths that leave the item.** A path that does not begin with a word for the item of its loop is in
the template of a tree exactly if it is in the tree. A preview looks it up in the data; in the template it
leads into the item of the innermost loop further out that has its first name, and from the current item
on if there is none. -/
theorem denotes_stray (isBuilding : Bool) (sample : Value) {t : Component.Tree}
    (hnamed : ∀ l ∈ t.lookups [], IsNamed l)
    (hruns : t.draft.outline.compiled.EveryRun ('\x7b' ∉ ·)) :
    ∃ template b, rewritten isBuilding sample t.toValue = .ok template ∧
      Content.read template = some b ∧
      ∀ (itemVar : Option String) (items : List (Option Text × Value)) (path : Text),
        ¬ IsOwnWord (itemVar.map String.toList) (firstName path).1 →
          ((itemVar.map String.toList :: items.map Prod.fst, path) ∈ b.paths [] ↔
            (itemVar.map String.toList :: items.map Prod.fst, path) ∈ t.paths) ∧
          ((itemVar.map String.toList :: items.map Prod.fst, path) ∈ t.paths →
            ∀ (entries : Mapping) (l : LoopScope) (item : Value),
              l.current = .ok item → l.itemVar = nameValue itemVar →
                ({ data := .map entries, loop := some l } : Context).scopedData.map
                    (Value.resolve path) = .ok ((Value.map entries).resolve path) ∧
                  valueAt (.map entries) ((itemVar.map String.toList, item) :: items) path =
                    ((items.find? fun own => own.1 == some (firstName path).1).map fun own =>
                      own.2.resolve (firstName path).2).getD (item.resolve path)) := by
  obtain ⟨template, hrewritten, hread⟩ := read_rewritten isBuilding sample hnamed hruns
  refine ⟨template, _, hrewritten, hread, fun itemVar items path hstray => ⟨?_, ?_⟩⟩
  · have hlocal : ¬ IsLocalPath (itemVar.map String.toList :: items.map Prod.fst) path :=
      fun h => hstray (h _ rfl)
    rw [← Content.paths_bare, Outline.bare_compiled, Content.paths_bare]
    exact mem_paths_body_iff (x := (_, path)) hlocal t .root hnamed
  · intro hmem entries l item current hvar
    exact ⟨resolve_scopedData current hvar (isNamePath_of_mem_pathsOf hnamed hmem) hstray,
      valueAt_of_not_own hstray _ item items⟩

private theorem angle_not_mem_name : '<' ∉ "name".toList := by decide

/-- A loop in a loop, under a condition over the item of the outer one and the data. -/
def roster : Component.Tree :=
  .each ⟨⟨"teams", by decide⟩, by decide⟩ (some ⟨"team", by decide⟩)
    [.each ⟨⟨"team.people", by decide⟩, by decide⟩ none
      [.ifThen "team.active && open" [.val ⟨"name", angle_not_mem_name⟩ .nothing]]]

/-- A member of a team. -/
def person : Value := .map [(.str "name", .str "n")]

/-- A team with one member. -/
def team : Value := .map [(.str "active", .bool true), (.str "people", .list [person])]

/-- Data of the roster. -/
def season : Mapping := [(.str "open", .bool true), (.str "teams", .list [team])]

theorem denotes_stray_roster :
    ((∀ l ∈ roster.lookups [], IsNamed l) ∧ roster.draft.outline.compiled.EveryRun ('\x7b' ∉ ·)) ∧
    ∃ template b, rewritten false .null roster.toValue = .ok template ∧
      Content.read template = some b ∧
      ([none, some "team".toList], "team.active".toList) ∈ b.paths [] ∧
      ({ data := .map season, loop := some ⟨"team.people", .list [person], some 0, .null⟩ } :
        Context).scopedData.map (Value.resolve "team.active".toList) =
          .ok ((Value.map season).resolve "team.active".toList) ∧
      valueAt (.map season) [(none, person), (some "team".toList, team)] "team.active".toList =
        team.resolve "active".toList := by
  have hnamed : ∀ l ∈ roster.lookups [], IsNamed l := by decide +kernel
  have hruns : roster.draft.outline.compiled.EveryRun ('\x7b' ∉ ·) := by decide +kernel
  obtain ⟨template, b, hrewritten, hread, hstray⟩ := denotes_stray false .null hnamed hruns
  obtain ⟨hkept, hvalues⟩ := hstray none [(some "team".toList, team)] "team.active".toList
    (by decide +kernel)
  have hmem : ([none, some "team".toList], "team.active".toList) ∈ roster.paths := by decide +kernel
  obtain ⟨hpreview, htemplate⟩ := hvalues hmem season
    ⟨"team.people", .list [person], some 0, .null⟩ person rfl rfl
  have hfirst : firstName "team.active".toList = ("team".toList, "active".toList) := by decide +kernel
  rw [hfirst, List.find?_cons, beq_self_eq_true, Option.map_some, Option.getD_some] at htemplate
  exact ⟨⟨hnamed, hruns⟩, template, b, hrewritten, hread, hkept.mpr hmem, hpreview, htemplate⟩

/-- A text and a condition in a loop. -/
def under (text condition : String) : Component.Tree :=
  .each ⟨⟨"teams", by decide⟩, by decide⟩ none [.text text, .ifThen condition [.text "x"]]

/-- **Scopes differ.** The data is not what a path in a template begins at, and the item of a loop
further out is not what one in a preview begins at. Besides, a disjunction is one path in the template, a
path of the item that stands for all items becomes one of the current item, and a text with a tag in it can
close the loop. -/
theorem denotes_stray_ne :
    (∃ template b, rewritten false .null (under "" "open").toValue = .ok template ∧
      Content.read template = some b ∧ ([none], "open".toList) ∈ b.paths [] ∧
      ({ data := .map season, loop := some ⟨"teams", .list [team], some 0, .null⟩ } :
        Context).scopedData.map (Value.resolve "open".toList) = .ok (.bool true) ∧
      valueAt (.map season) [(none, team)] "open".toList = .absent) ∧
    (∃ template b, rewritten false .null roster.toValue = .ok template ∧
      Content.read template = some b ∧
      ([none, some "team".toList], "team.active".toList) ∈ b.paths [] ∧
      ({ data := .map season, loop := some ⟨"team.people", .list [person], some 0, .null⟩ } :
        Context).scopedData.map (Value.resolve "team.active".toList) = .ok .absent ∧
      valueAt (.map season) [(none, person), (some "team".toList, team)] "team.active".toList =
        .bool true) ∧
    (∃ template b, rewritten false .null (under "" "open || late").toValue = .ok template ∧
      Content.read template = some b ∧ ([none], "open".toList) ∈ (under "" "open || late").paths ∧
      ([none], "open".toList) ∉ b.paths []) ∧
    (∃ template b, rewritten false .null (under "" "teams.[0].active").toValue = .ok template ∧
      Content.read template = some b ∧
      ([none], "teams.[0].active".toList) ∈ (under "" "teams.[0].active").paths ∧
      ([none], "teams.[0].active".toList) ∉ b.paths []) ∧
    ∃ template, rewritten false .null (under "\x7b\x7b/each\x7d\x7d" "open").toValue = .ok template ∧
      Content.read template = none := by
  refine ⟨⟨"\x7b\x7b#each teams\x7d\x7d\x7b\x7b#if open\x7d\x7dx\x7b\x7b/if\x7d\x7d\x7b\x7b/each\x7d\x7d".toList,
      .loop [] "teams".toList none
        (.conditional [] false "open".toList (.text ['x']) (.text [])) (.text []),
      rewritten_of_toOption false .null rfl (by decide +kernel), rfl, by decide +kernel, ?_, rfl⟩,
    ⟨("\x7b\x7b#each teams as |team|\x7d\x7d\x7b\x7b#each team.people\x7d\x7d" ++
        "\x7b\x7b#if team.active\x7d\x7d\x7b\x7b#if open\x7d\x7d\x7b\x7bthis.name\x7d\x7d\x7b\x7b/if\x7d\x7d\x7b\x7b/if\x7d\x7d" ++
        "\x7b\x7b/each\x7d\x7d\x7b\x7b/each\x7d\x7d").toList,
      .loop [] "teams".toList (some "team".toList)
        (.loop [] "team.people".toList none
          (.conditional [] false "team.active".toList
            (.conditional [] false "open".toList (.reference [] "this.name".toList (.text []))
              (.text [])) (.text [])) (.text [])) (.text []),
      rewritten_of_toOption false .null rfl (by decide +kernel), by decide +kernel, by decide +kernel,
      ?_⟩,
    ⟨"\x7b\x7b#each teams\x7d\x7d\x7b\x7b#if open || late\x7d\x7dx\x7b\x7b/if\x7d\x7d\x7b\x7b/each\x7d\x7d".toList,
      .loop [] "teams".toList none
        (.conditional [] false "open || late".toList (.text ['x']) (.text [])) (.text []),
      rewritten_of_toOption false .null rfl (by decide +kernel), by decide +kernel, by decide +kernel,
      by decide +kernel⟩,
    ⟨"\x7b\x7b#each teams\x7d\x7d\x7b\x7b#if this.active\x7d\x7dx\x7b\x7b/if\x7d\x7d\x7b\x7b/each\x7d\x7d".toList,
      .loop [] "teams".toList none
        (.conditional [] false "this.active".toList (.text ['x']) (.text [])) (.text []),
      rewritten_of_toOption false .null rfl (by decide +kernel), by decide +kernel, by decide +kernel,
      by decide +kernel⟩,
    ⟨("\x7b\x7b#each teams\x7d\x7d\x7b\x7b/each\x7d\x7d\x7b\x7b#if open\x7d\x7dx" ++
        "\x7b\x7b/if\x7d\x7d\x7b\x7b/each\x7d\x7d").toList,
      rewritten_of_toOption false .null rfl (by decide +kernel), by decide +kernel⟩⟩
  · have hvar : Value.null = nameValue none := rfl
    have hcurrent : LoopScope.current ⟨"teams", .list [team], some 0, .null⟩ = .ok team := rfl
    rw [resolve_scopedData hcurrent hvar (by decide) (by decide)]
    rfl
  · have hvar : Value.null = nameValue none := rfl
    have hcurrent : LoopScope.current ⟨"team.people", .list [person], some 0, .null⟩ = .ok person := rfl
    have hfirst : firstName "team.active".toList = ("team".toList, "active".toList) := by
      decide +kernel
    refine ⟨?_, ?_⟩
    · rw [resolve_scopedData hcurrent hvar (by decide) (by decide)]
      rfl
    · rw [valueAt_of_not_own (by decide +kernel), hfirst, List.find?_cons, beq_self_eq_true,
        Option.map_some, Option.getD_some]
      rfl

end Stencil.Render
