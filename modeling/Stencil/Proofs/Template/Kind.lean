import Stencil.Proofs.Template.Layout
import Stencil.Proofs.Text.Unescape

/-!
# Conditionals and loops as kinds of blocks

`conditionalKind` and `loopKind` are the two kinds of blocks that a template is lowered from. The head
of a conditional is its condition, that of a loop its array and item variable, and a tag is written
with the head escaped. That a written tag is recognised again, with the attribute values as they were
written, is what the laws of `BlockKind` ask for.
-/

namespace Stencil.Template

open Text Markup

/-! ### The words of the tags, character by character -/

theorem ifOpening_eq : ifOpening = ['<', 'h', 'b', '-', 'i', 'f'] := by decide

theorem ifClosing_eq : ifClosing = ['<', '/', 'h', 'b', '-', 'i', 'f', '>'] := by decide

theorem elseOpening_eq : elseOpening = ['<', 'h', 'b', '-', 'e', 'l', 's', 'e', '>'] := by decide

theorem elseClosing_eq : elseClosing = ['<', '/', 'h', 'b', '-', 'e', 'l', 's', 'e', '>'] := by
  decide

theorem eachOpening_eq : eachOpening = ['<', 'h', 'b', '-', 'e', 'a', 'c', 'h'] := by decide

theorem eachClosing_eq : eachClosing = ['<', '/', 'h', 'b', '-', 'e', 'a', 'c', 'h', '>'] := by
  decide

/-! ### The rest of a tag and the body behind it -/

/-- A tag ends at its first angle bracket. -/
theorem tagEnd?_append {u v : Text} (h : '>' ∉ u) : tagEnd? (u ++ '>' :: v) = some v := by
  induction u with
  | nil => rfl
  | cons c cs ih =>
    simp only [List.mem_cons, not_or] at h
    rw [List.cons_append, tagEnd?, if_neg (Ne.symm h.1), ih h.2]

/-- The search for the end of a body goes over what is clear of both tags. -/
theorem bodyUntil?_clear_append {opening closing u : Text} (h : Clear opening closing u) (t : Text) :
    bodyUntil? opening closing (u ++ t) =
      (bodyUntil? opening closing t).map fun (body, rest) => (u ++ body, rest) := by
  have hall := h t
  clear h
  induction u with
  | nil => simp
  | cons c cs ih =>
    have hopen := startsWith_eq_false_iff.mpr hall.1.1
    have hclose := after?_eq_none_iff.mpr hall.1.2
    rw [List.cons_append] at hopen hclose
    rw [List.cons_append, bodyUntil?, hclose, hopen, ih hall.2]
    simp [Function.comp_def]

/-- A body that is clear of both tags goes up to the closing tag. -/
theorem bodyUntil?_append {opening closing body : Text} (h : Clear opening closing body)
    (hne : closing ≠ []) (rest : Text) :
    bodyUntil? opening closing (body ++ (closing ++ rest)) = some (body, rest) := by
  have hend : bodyUntil? opening closing (closing ++ rest) = some ([], rest) := by
    cases closing with
    | nil => exact absurd rfl hne
    | cons c cs =>
      have hc : after? (c :: cs) (c :: (cs ++ rest)) = some rest := after?_append (c :: cs) rest
      simp only [List.cons_append, bodyUntil?, hc]
  rw [bodyUntil?_clear_append h, hend]
  simp

/-- There is no body if another opening tag comes first. -/
theorem bodyUntil?_nested {opening closing body t : Text} (h : Clear opening closing body)
    (hne : opening ≠ []) (hoc : ¬ closing <+: opening ++ t) :
    bodyUntil? opening closing (body ++ (opening ++ t)) = none := by
  have hstop : bodyUntil? opening closing (opening ++ t) = none := by
    cases opening with
    | nil => exact absurd rfl hne
    | cons c cs =>
      have hc := after?_eq_none_iff.mpr hoc
      have hs : startsWith (c :: cs) (c :: (cs ++ t)) = true :=
        startsWith_iff.mpr (List.prefix_append (c :: cs) t)
      rw [List.cons_append] at hc
      simp only [List.cons_append, bodyUntil?, hc, hs, if_true]
  rw [bodyUntil?_clear_append h, hstop]
  rfl

/-- Behind the rest of a tag the body is read. -/
theorem restAndBody?_append {opening closing u : Text} (hu : '>' ∉ u) (v : Text) :
    restAndBody? opening closing (u ++ '>' :: v) = bodyUntil? opening closing v := by
  rw [restAndBody?, tagEnd?_append hu]
  rfl

/-! ### Attributes -/

/-- An attribute as it is written. -/
def writtenAttribute (name value : Text) : Text :=
  ' ' :: name ++ ['=', '"'] ++ escape value ++ ['"']

/-- A written attribute has no angle brackets but those in its name. -/
theorem not_mem_writtenAttribute {name value : Text} {c : Char} (hn : c ∉ name)
    (hc : c = '<' ∨ c = '>') : c ∉ writtenAttribute name value := by
  intro h
  have hne : c ∉ ([' ', '=', '"'] : Text) := by rcases hc with rfl | rfl <;> decide
  have hesc : c ∉ escape value := by
    rcases hc with rfl | rfl
    · exact fun h => (mem_escape h).1 rfl
    · exact fun h => (mem_escape h).2.1 rfl
  simp only [List.mem_cons, List.not_mem_nil, or_false, not_or] at hne
  simp [writtenAttribute, hn, hne, hesc] at h

/-- An attribute is read with what stands in its quotes. Its name begins with no white space. -/
theorem attribute?_quoted {name value : Text} (hname : ∀ c ∈ name, isBlank c = false)
    (hvalue : '"' ∉ value) (rest : Text) :
    attribute? name (' ' :: (name ++ ['=', '"'] ++ (value ++ '"' :: rest))) = some (value, rest) := by
  have hblank : blanks? (' ' :: (name ++ ['=', '"'] ++ (value ++ '"' :: rest))) =
      some (name ++ ['=', '"'] ++ (value ++ '"' :: rest)) := by
    rw [blanks?, if_pos (by decide)]
    cases name with
    | nil => rfl
    | cons n ns => simp [hname n (by simp)]
  have hquoted : quotedValue? (value ++ '"' :: rest) = some (value, rest) :=
    quotedValue?_eq_some_iff.mpr ⟨rfl, hvalue⟩
  rw [attribute?, hblank]
  simp only [Option.bind_eq_bind, Option.bind_some]
  rw [after?_append, Option.bind_some, hquoted]

/-- **A written attribute is read again**, with its value escaped. -/
theorem attribute?_writtenAttribute {name : Text} (hname : ∀ c ∈ name, isBlank c = false)
    (value rest : Text) :
    attribute? name (writtenAttribute name value ++ rest) = some (escape value, rest) := by
  have hwritten : writtenAttribute name value ++ rest =
      ' ' :: (name ++ ['=', '"'] ++ (escape value ++ '"' :: rest)) := by
    simp [writtenAttribute]
  rw [hwritten, attribute?_quoted hname fun h => (mem_escape h).2.2 rfl]

/-- A written attribute that is not empty is read again, with its value escaped. -/
theorem filledAttribute?_writtenAttribute {name value : Text}
    (hname : ∀ c ∈ name, isBlank c = false) (hv : value ≠ []) (rest : Text) :
    filledAttribute? name (writtenAttribute name value ++ rest) = some (escape value, rest) := by
  simp [filledAttribute?, attribute?_writtenAttribute hname, escape_eq_nil_iff, hv]

/-! ### Conditionals -/

/-- The opening tag of a conditional. -/
def ifTag (condition : Text) : Text :=
  ifOpening ++ writtenAttribute "condition".toList condition ++ ['>']

/-- The opening tag of a conditional, taken apart where the readers do. -/
private theorem ifTag_append (condition v : Text) :
    ifTag condition ++ v =
      ifOpening ++ (writtenAttribute "condition".toList condition ++ '>' :: v) := by
  simp [ifTag]

/-- The condition of a written tag is read again. -/
private theorem attribute?_condition (condition v : Text) :
    attribute? "condition".toList (writtenAttribute "condition".toList condition ++ v) =
      some (escape condition, v) :=
  attribute?_writtenAttribute (by decide) condition v

private theorem not_mem_condition (condition : Text) :
    '>' ∉ writtenAttribute "condition".toList condition :=
  not_mem_writtenAttribute (by decide) (.inr rfl)

/-- No opening tag of a conditional begins like a closing one. -/
private theorem ifClosing_not_prefix_opening (t : Text) : ¬ ifClosing <+: ifOpening ++ t := by
  simp [ifClosing_eq, ifOpening_eq]

/-- **A conditional tag is read with its condition**, as it is written, whenever a body is read behind it. -/
theorem conditional?_ifTag_append (condition v : Text) :
    conditional? (ifTag condition ++ v) =
      (bodyUntil? ifOpening ifClosing v).map fun (body, rest) =>
        (⟨some (escape condition), body⟩, rest) := by
  have hwith : restAndBody? ifOpening ifClosing ('>' :: v) = bodyUntil? ifOpening ifClosing v :=
    restAndBody?_append (u := []) List.not_mem_nil v
  have hwithout : restAndBody? ifOpening ifClosing
      (writtenAttribute "condition".toList condition ++ '>' :: v) = bodyUntil? ifOpening ifClosing v :=
    restAndBody?_append (not_mem_condition condition) v
  rw [ifTag_append, conditional?, after?_append, Option.bind_eq_bind, Option.bind_some,
    conditionalWith?, attribute?_condition, Option.bind_eq_bind, Option.bind_some, conditionalWithout?]
  simp only [hwith, hwithout]
  cases bodyUntil? ifOpening ifClosing v <;> rfl

/-- An innermost conditional is recognised, with its condition as it is written. -/
theorem conditional?_ifTag {condition body rest : Text} (h : Clear ifOpening ifClosing body) :
    conditional? (ifTag condition ++ (body ++ (ifClosing ++ rest))) =
      some (⟨some (escape condition), body⟩, rest) := by
  rw [conditional?_ifTag_append, bodyUntil?_append h (by simp [ifClosing_eq])]
  rfl

/-- A conditional with another one in it is not recognised yet. -/
theorem conditional?_ifTag_nested {condition body t : Text} (h : Clear ifOpening ifClosing body) :
    conditional? (ifTag condition ++ (body ++ (ifOpening ++ t))) = none := by
  rw [conditional?_ifTag_append, bodyUntil?_nested h (by simp [ifOpening_eq])
    (ifClosing_not_prefix_opening t)]
  rfl

/-- **Conditionals.** The head is the condition. -/
def conditionalKind : BlockKind Text Conditional where
  opening := ifOpening
  closing := ifClosing
  start := ifTag
  hit condition body := ⟨some (escape condition), body⟩
  match? := conditional?
  lower := lowerConditional
  opening_ne_nil := by simp [ifOpening_eq]
  opening_prefix_start condition := by simp [ifTag]
  match?_eq_none h := by simp [conditional?, after?_eq_none_iff.mpr h]
  match?_innermost h := conditional?_ifTag h
  match?_nested h := conditional?_ifTag_nested h
  start_tail condition v := by
    refine everyTail_of_forall_mem fun c hc s hp => ?_
    have hlt : '<' ∉ writtenAttribute "condition".toList condition :=
      not_mem_writtenAttribute (by decide) (.inl rfl)
    obtain rfl : '<' = c := (List.cons_prefix_cons.mp (ifOpening_eq ▸ hp)).1
    have htail : (ifTag condition).tail =
        ['h', 'b', '-', 'i', 'f'] ++ writtenAttribute "condition".toList condition ++ ['>'] := by
      rw [ifTag, ifOpening_eq]
      rfl
    rw [htail] at hc
    rcases List.mem_append.mp hc with hc | hc
    · exact (List.mem_append.mp hc).elim (by decide) hlt
    · exact absurd hc (by decide)
  closing_tail v := by simp [ifClosing_eq, ifOpening_eq]

/-! ### Loops -/

/-- What a loop is over: its array, and the name of its item if it has one. -/
structure LoopHead where
  /-- The array. -/
  array : Text
  /-- The name of the item. -/
  itemVar : Option Text := none
  array_ne_nil : array ≠ []
  itemVar_ne_nil : itemVar ≠ some []

/-- The attributes of a loop. -/
def LoopHead.attributes (h : LoopHead) : Text :=
  writtenAttribute "array".toList h.array ++
    (h.itemVar.map (writtenAttribute "itemVar".toList)).getD []

/-- The opening tag of a loop. -/
def LoopHead.tag (h : LoopHead) : Text := eachOpening ++ h.attributes ++ ['>']

/-- What is found for a loop. -/
def LoopHead.found (h : LoopHead) (body : Text) : Loop :=
  ⟨escape h.array, h.itemVar.map escape, body⟩

/-- The attributes of a loop are written without angle brackets. -/
theorem LoopHead.not_mem_attributes (h : LoopHead) {c : Char} (hc : c = '<' ∨ c = '>') :
    c ∉ h.attributes := by
  have harray : c ∉ writtenAttribute "array".toList h.array :=
    not_mem_writtenAttribute (by rcases hc with rfl | rfl <;> decide) hc
  have hitem : ∀ v, c ∉ writtenAttribute "itemVar".toList v := fun v =>
    not_mem_writtenAttribute (by rcases hc with rfl | rfl <;> decide) hc
  intro hmem
  rcases List.mem_append.mp hmem with hmem | hmem
  · exact harray hmem
  · cases hv : h.itemVar with
    | none => simp [hv] at hmem
    | some v =>
      rw [hv] at hmem
      exact hitem v hmem

private theorem filledAttribute?_array (h : LoopHead) (v : Text) :
    filledAttribute? "array".toList (writtenAttribute "array".toList h.array ++ v) =
      some (escape h.array, v) :=
  filledAttribute?_writtenAttribute (by decide) h.array_ne_nil v

private theorem filledAttribute?_itemVar {name : Text} (h : name ≠ []) (v : Text) :
    filledAttribute? "itemVar".toList (writtenAttribute "itemVar".toList name ++ v) =
      some (escape name, v) :=
  filledAttribute?_writtenAttribute (by decide) h v

/-- Where the tag ends, no item variable is read. -/
private theorem filledAttribute?_itemVar_none (v : Text) :
    filledAttribute? "itemVar".toList ('>' :: v) = none := by
  rw [filledAttribute?, attribute?, blanks?, if_neg (by decide)]
  rfl

/-- No opening tag of a loop begins like a closing one. -/
private theorem eachClosing_not_prefix_opening (t : Text) : ¬ eachClosing <+: eachOpening ++ t := by
  simp [eachClosing_eq, eachOpening_eq]

/-- The opening tag of a loop, taken apart where the readers do. -/
private theorem tag_append (h : LoopHead) (v : Text) :
    h.tag ++ v = eachOpening ++ (writtenAttribute "array".toList h.array ++
      ((h.itemVar.map (writtenAttribute "itemVar".toList)).getD [] ++ '>' :: v)) := by
  simp [LoopHead.tag, LoopHead.attributes]

/-- **A loop tag is read with its array and item variable**, as they are written, whenever a body is read
behind it. -/
theorem loop?_tag_append (h : LoopHead) (v : Text) :
    loop? (h.tag ++ v) =
      (bodyUntil? eachOpening eachClosing v).map fun (body, rest) => (h.found body, rest) := by
  have hend : restAndBody? eachOpening eachClosing ('>' :: v) = bodyUntil? eachOpening eachClosing v :=
    restAndBody?_append (u := []) List.not_mem_nil v
  rw [tag_append, loop?, after?_append, Option.bind_eq_bind, Option.bind_some,
    filledAttribute?_array, Option.bind_eq_bind, Option.bind_some]
  simp only [LoopHead.found]
  cases hv : h.itemVar with
  | none =>
    rw [loopWith?, Option.map_none, Option.getD_none, List.nil_append,
      filledAttribute?_itemVar_none, loopWithout?, hend]
    cases bodyUntil? eachOpening eachClosing v <;> rfl
  | some name =>
    have hname : name ≠ [] := fun he => h.itemVar_ne_nil (he ▸ hv)
    have hwithout : restAndBody? eachOpening eachClosing
        (writtenAttribute "itemVar".toList name ++ '>' :: v) = bodyUntil? eachOpening eachClosing v :=
      restAndBody?_append (not_mem_writtenAttribute (by decide) (.inr rfl)) v
    rw [loopWith?, Option.map_some, Option.getD_some, filledAttribute?_itemVar hname,
      Option.bind_eq_bind, Option.bind_some, loopWithout?]
    simp only [hend, hwithout]
    cases bodyUntil? eachOpening eachClosing v <;> rfl

/-- An innermost loop is recognised, with its array and item variable as they are written. -/
theorem loop?_tag {h : LoopHead} {body rest : Text} (hbody : Clear eachOpening eachClosing body) :
    loop? (h.tag ++ (body ++ (eachClosing ++ rest))) = some (h.found body, rest) := by
  rw [loop?_tag_append, bodyUntil?_append hbody (by simp [eachClosing_eq])]
  rfl

/-- A loop with another one in it is not recognised yet. -/
theorem loop?_tag_nested {h : LoopHead} {body t : Text}
    (hbody : Clear eachOpening eachClosing body) :
    loop? (h.tag ++ (body ++ (eachOpening ++ t))) = none := by
  rw [loop?_tag_append, bodyUntil?_nested hbody (by simp [eachOpening_eq])
    (eachClosing_not_prefix_opening t)]
  rfl

/-- **Loops.** -/
def loopKind : BlockKind LoopHead Loop where
  opening := eachOpening
  closing := eachClosing
  start := LoopHead.tag
  hit := LoopHead.found
  match? := loop?
  lower := lowerLoop
  opening_ne_nil := by simp [eachOpening_eq]
  opening_prefix_start h := by simp [LoopHead.tag]
  match?_eq_none h := by simp [loop?, after?_eq_none_iff.mpr h]
  match?_innermost h := loop?_tag h
  match?_nested h := loop?_tag_nested h
  start_tail h v := by
    refine everyTail_of_forall_mem fun c hc s hp => ?_
    have hlt := h.not_mem_attributes (.inl rfl : '<' = '<' ∨ '<' = '>')
    obtain rfl : '<' = c := (List.cons_prefix_cons.mp (eachOpening_eq ▸ hp)).1
    simp [LoopHead.tag, eachOpening_eq, hlt] at hc
  closing_tail v := by simp [eachClosing_eq, eachOpening_eq]

end Stencil.Template
