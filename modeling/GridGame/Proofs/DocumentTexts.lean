import GridGame.Project
import GridGame.Proofs.JsonTexts
import Mathlib.Data.Option.Basic
import Mathlib.Order.Lattice

/-!
# Written documents

A document is read back from its text, unless the text nests too deep. How deep a value nests is a
property of its own (`Json.nesting`). What is read from a part of a written document is exactly what
was written there, if the part does not nest deeper than is left for it, and nothing otherwise
(`ReadsAs`). Parts use up what is left at different rates: a child takes two levels more than its
parent, and a property three.
-/

namespace GridGame

namespace Json

mutual

/-- How deep arrays and objects nest in a value. -/
def nesting : Json → Nat
  | .null | .bool _ | .number _ | .string _ => 0
  | .array items => itemNesting items + 1
  | .object members => memberNesting members + 1

def itemNesting : List Json → Nat
  | [] => 0
  | item :: items => max (nesting item) (itemNesting items)

def memberNesting : List (Option String × Json) → Nat
  | [] => 0
  | (_, v) :: members => max (nesting v) (memberNesting members)

end

lemma memberNesting_append (l l' : List (Option String × Json)) :
    memberNesting (l ++ l') = max (memberNesting l) (memberNesting l') := by
  induction l with
  | nil => simp [memberNesting]
  | cons m l ih =>
    obtain ⟨name, v⟩ := m
    rw [List.cons_append, memberNesting, memberNesting, ih, max_assoc]

end Json

namespace Document

open Json

variable {α β : Type}

/-- From a value that does not nest deeper than is allowed, `x` is read, and nothing otherwise. -/
def ReadsAs (read : Nat → Json → Option α) (v : Json) (x : α) : Prop :=
  ∀ levels, read levels v = if v.nesting ≤ levels then some x else none

lemma ite_bind {p : Prop} [Decidable p] (a : α) (f : α → Option β) :
    (if p then some a else none).bind f = if p then f a else none := by
  split_ifs <;> rfl

/-! ### Numbers and choices -/

lemma readUInt32?_numberJson (v : UInt32) : readUInt32? (numberJson v.toNat) = some v := by
  have hlt : (v.toNat : Int) < 4294967296 := Int.ofNat_lt.mpr v.toNat_lt
  rw [numberJson, readUInt32?, if_pos ⟨by omega, hlt⟩, Int.toNat_natCast, UInt32.ofNat_toNat]

lemma readInt64?_numberJson (v : Int64) : readInt64? (numberJson v.toInt) = some v := by
  rw [numberJson, readInt64?, if_pos ⟨v.le_toInt, v.toInt_lt⟩, Int64.ofInt_toInt]

lemma readPair?_object {levels : Nat} {first second : String} (hne : first ≠ second) {v w : Json}
    {a b : UInt32} (hv : readUInt32? v = some a) (hw : readUInt32? w = some b) :
    readPair? levels first second (.object [memberJson first v, memberJson second w]) =
      if 0 < levels then some (a, b) else none := by
  have hnamed : namedMembers? [memberJson first v, memberJson second w] =
      some [(first, v), (second, w)] := rfl
  have hfirst : requiredMember? first [(first, v), (second, w)] = some v := by
    simp [requiredMember?, member?, hne.symm]
  have hsecond : requiredMember? second [(first, v), (second, w)] = some w := by
    simp [requiredMember?, member?, hne]
  rw [readPair?, hnamed]
  simp only [hfirst, hsecond, hv, hw, guard, Option.bind_eq_bind, Option.bind_some, Option.pure_def]
  split_ifs <;> rfl

lemma nesting_pair (first second : String) (a b : Int) :
    (Json.object [memberJson first (numberJson a), memberJson second (numberJson b)]).nesting = 1 :=
  rfl

lemma readsAs_kind (kind : Kind) : ReadsAs readKind? (kindJson kind) kind := by
  intro levels
  have htag : Kind.ofTag? kind.tag = some kind := by
    cases kind <;> rfl
  simp [kindJson, textJson, readKind?, readChoice?, isBare, nesting, htag]

lemma readsAs_span (span : Span) : ReadsAs readSpan? (spanJson span) span := by
  intro levels
  rw [readSpan?, spanJson, nesting_pair,
    readPair?_object (by decide) (readUInt32?_numberJson _) (readUInt32?_numberJson _)]
  show _ = if 0 < levels then some span else none
  split_ifs <;> rfl

lemma readChoice?_object {levels : Nat} (name : String) (content : Json) :
    readChoice? levels (.object [memberJson name content]) =
      if 1 ≤ levels then some (name, some content) else none := rfl

lemma nesting_choice (name : String) (content : Json) :
    (Json.object [memberJson name content]).nesting = content.nesting + 1 := by
  simp only [memberJson, nesting, memberNesting, Nat.max_zero]

lemma readsAs_literal (literal : Literal) : ReadsAs readLiteral? (literalJson literal) literal := by
  intro levels
  cases literal with
  | none => rfl
  | integer v =>
    rw [readLiteral?, literalJson, readChoice?_object, Option.bind_eq_bind, ite_bind,
      nesting_choice]
    simp only [readInt64?_numberJson]
    rfl
  | boolean b =>
    rw [readLiteral?, literalJson, readChoice?_object, Option.bind_eq_bind, ite_bind,
      nesting_choice]
    rfl
  | text s =>
    rw [readLiteral?, literalJson, readChoice?_object, Option.bind_eq_bind, ite_bind,
      nesting_choice]
    rfl
  | dimensions w h =>
    rw [readLiteral?, literalJson, readChoice?_object, Option.bind_eq_bind, ite_bind,
      nesting_choice, nesting_pair]
    simp only [readPair?_object (by decide : "width" ≠ "height") (readUInt32?_numberJson w)
      (readUInt32?_numberJson h)]
    by_cases hlevels : 2 ≤ levels
    · rw [if_pos (by omega), if_pos (by omega), if_pos (by omega)]
      rfl
    · rw [if_neg (by omega : ¬ 1 + 1 ≤ levels), if_neg (by omega : ¬ 0 < levels - 1)]
      split_ifs <;> rfl

/-! ### Arrays -/

/-- Items of an array are read one by one. -/
lemma mapM_of_readsAs {read : Nat → Json → Option α} {items : List Json} {xs : List α}
    (h : List.Forall₂ (ReadsAs read) items xs) (levels : Nat) :
    items.mapM (read levels) = if itemNesting items ≤ levels then some xs else none := by
  induction h with
  | nil => simp [itemNesting]
  | cons hitem _ ih =>
    rw [List.mapM_cons, hitem levels, ih, itemNesting]
    simp only [Option.bind_eq_bind, ite_bind, sup_le_iff, ite_and]
    rfl

lemma readsAs_array {readArray : Nat → Json → Option (List α)} {read : Nat → Json → Option α}
    {items : List Json} {xs : List α} (hzero : readArray 0 (.array items) = none)
    (hsucc : ∀ levels, readArray (levels + 1) (.array items) = items.mapM (read levels))
    (h : List.Forall₂ (ReadsAs read) items xs) : ReadsAs readArray (.array items) xs := by
  intro levels
  rw [nesting]
  cases levels with
  | zero => rw [hzero, if_neg (Nat.not_succ_le_zero _)]
  | succ levels =>
    rw [hsucc, mapM_of_readsAs h]
    simp only [Nat.succ_le_succ_iff]

lemma readsAs_property {name value : Document} (hname : ReadsAs read? name.toJson name)
    (hvalue : ReadsAs read? value.toJson value) :
    ReadsAs readProperty? (.array [name.toJson, value.toJson]) (name, value) := by
  intro levels
  rw [nesting]
  cases levels with
  | zero => rw [readProperty?, if_neg (Nat.not_succ_le_zero _)]; simp
  | succ levels =>
    rw [readProperty?, hname levels, hvalue levels]
    simp only [Option.bind_eq_bind, ite_bind, itemNesting, Nat.succ_le_succ_iff, sup_le_iff,
      ite_and, Nat.zero_le, and_true]
    rfl

lemma forall₂_childrenJson {children : List Document}
    (h : ∀ child ∈ children, ReadsAs read? child.toJson child) :
    List.Forall₂ (ReadsAs read?) (childrenJson children) children := by
  induction children with
  | nil => exact .nil
  | cons child children ih =>
    obtain ⟨hchild, hchildren⟩ := List.forall_mem_cons.mp h
    exact .cons hchild (ih hchildren)

lemma forall₂_propertiesJson {properties : List (Document × Document)}
    (h : ∀ p ∈ properties, ReadsAs read? p.1.toJson p.1 ∧ ReadsAs read? p.2.toJson p.2) :
    List.Forall₂ (ReadsAs readProperty?) (propertiesJson properties) properties := by
  induction properties with
  | nil => exact .nil
  | cons property properties ih =>
    obtain ⟨hproperty, hproperties⟩ := List.forall_mem_cons.mp h
    exact .cons (readsAs_property hproperty.1 hproperty.2) (ih hproperties)

/-! ### Nodes -/

/-- An array that is left out when it is empty. -/
def arrayPart : List Json → Option Json
  | [] => none
  | items => some (.array items)

/-- An array that was left out is read as an empty one. -/
lemma optional?_arrayPart {read : Nat → Json → Option (List α)} {items : List Json} {xs : List α}
    (h : ReadsAs read (.array items) xs) (hlength : items.length = xs.length) (name : String)
    (levels : Nat) :
    optional? [] (read levels) (arrayPart items) =
      if memberNesting (arrayMember name items) ≤ levels then some xs else none := by
  cases items with
  | nil =>
    obtain rfl := List.length_eq_zero_iff.mp hlength.symm
    rw [arrayMember, memberNesting, if_pos (Nat.zero_le _)]
    rfl
  | cons item items =>
    have hnesting : memberNesting (arrayMember name (item :: items)) =
        (Json.array (item :: items)).nesting := by
      simp only [arrayMember, memberJson, memberNesting, Nat.max_zero]
    rw [hnesting]
    exact h levels

lemma parts?_toJson (kind : Kind) (literal : Literal) (span : Span) (children : List Document)
    (properties : List (Document × Document)) :
    parts? (toJson (.node kind literal span children properties)) =
      some ⟨kindJson kind, some (literalJson literal), some (spanJson span),
        arrayPart (childrenJson children), arrayPart (propertiesJson properties)⟩ := by
  rw [toJson]
  cases childrenJson children with
  | nil =>
    cases propertiesJson properties with
    | nil => rfl
    | cons => rfl
  | cons =>
    cases propertiesJson properties with
    | nil => rfl
    | cons => rfl

/-- How deep a written document nests, part by part. -/
lemma nesting_toJson_le {kind : Kind} {literal : Literal} {span : Span} {children : List Document}
    {properties : List (Document × Document)} {levels : Nat} :
    (toJson (.node kind literal span children properties)).nesting ≤ levels + 1 ↔
      (literalJson literal).nesting ≤ levels ∧ (spanJson span).nesting ≤ levels ∧
      memberNesting (arrayMember "children" (childrenJson children)) ≤ levels ∧
      memberNesting (arrayMember "properties" (propertiesJson properties)) ≤ levels := by
  rw [toJson, nesting, Nat.succ_le_succ_iff, memberNesting_append, memberNesting_append]
  simp [memberJson, memberNesting, kindJson, textJson, nesting]

lemma readsAs_toJson (d : Document) : ReadsAs read? d.toJson d := by
  induction d using contents_induction with
  | node kind literal span children properties hchildren hproperties =>
    have hchildren := forall₂_childrenJson hchildren
    have hproperties := forall₂_propertiesJson hproperties
    intro levels
    cases levels with
    | zero =>
      rw [read?, toJson, nesting, if_neg (Nat.not_succ_le_zero _)]
    | succ levels =>
      have hkind : readKind? levels (kindJson kind) = some kind := readsAs_kind kind levels
      have hliteral : optional? .none (readLiteral? levels) (some (literalJson literal)) = _ :=
        readsAs_literal literal levels
      have hspan : optional? .detached (readSpan? levels) (some (spanJson span)) = _ :=
        readsAs_span span levels
      have hchildren := optional?_arrayPart
        (readsAs_array rfl (fun _ => rfl) hchildren : ReadsAs readChildren? _ _)
        hchildren.length_eq "children" levels
      have hproperties := optional?_arrayPart
        (readsAs_array rfl (fun _ => rfl) hproperties : ReadsAs readProperties? _ _)
        hproperties.length_eq "properties" levels
      rw [read?, parts?_toJson]
      simp only [nesting_toJson_le, hkind, hliteral, hspan, hchildren, hproperties,
        Option.bind_eq_bind, Option.bind_some, ite_bind, ite_and]
      rfl

/-! ### Texts -/

lemma parse?_render_eq (d : Document) :
    parse? d.render = if d.toJson.nesting ≤ maxNesting then some d else none := by
  rw [parse?, render, Json.parse?_render, Option.bind_some, readsAs_toJson]

/-- Different documents have different texts, however deep they nest. -/
lemma render_injective : Function.Injective render := by
  intro d d' h
  have hvalues : d.toJson = d'.toJson := by
    apply Option.some.inj
    rw [← Json.parse?_render, ← Json.parse?_render]
    exact congrArg Json.parse? h
  have hread := readsAs_toJson d d.toJson.nesting
  rw [hvalues, readsAs_toJson d', if_pos le_rfl, if_pos le_rfl] at hread
  exact (Option.some.inj hread).symm

/-- A text as it is written back once it has been read. -/
def normalize? (text : String) : Option String := (parse? text).map render

/-- Every document is read back from its text, if the arrays and objects in the text nest at most as
deep as is allowed; if they nest deeper, the text is no document. Different documents have different
texts. A text that was read and written back is not changed by reading and writing it again, unless
what was written nests too deep. -/
theorem written_documents_read_back (d : Document) :
    Json.parse? d.render = some d.toJson ∧
    parse? d.render = (if d.toJson.nesting ≤ maxNesting then some d else none) ∧
    (maxNesting < d.toJson.nesting →
      ∀ settings, compileText d.render settings = .fail .notDocument) ∧
    (∀ d' : Document, d'.render = d.render → d' = d) ∧
    ∀ text, parse? text = some d →
      ((normalize? text).bind normalize? = normalize? text ↔ d.toJson.nesting ≤ maxNesting) := by
  refine ⟨Json.parse?_render d.toJson, parse?_render_eq d, ?_, fun d' h => render_injective h, ?_⟩
  · intro hdeep settings
    rw [compileText, parse?_render_eq, if_neg (Nat.not_le.mpr hdeep)]
  · intro text htext
    have hwritten : normalize? text = some d.render := by rw [normalize?, htext, Option.map_some]
    rw [hwritten, Option.bind_some, normalize?, parse?_render_eq]
    split_ifs with hnesting
    · simp [hnesting]
    · simp [hnesting]

/-- A board inside a number of nodes, one in the other. -/
def enclosedBoard : Nat → Document
  | 0 => .node .board (.dimensions 3 4) ⟨1, 2⟩ [] []
  | n + 1 => .node .start (.text "\"\\\n\x01") .detached [enclosedBoard n] []

/-- The deepest board of this sort that can be read back. -/
theorem written_documents_read_back_enclosedBoard :
    parse? (enclosedBoard 62).render = some (enclosedBoard 62) ∧
      parse? (enclosedBoard 63).render = none := by
  have hfits : (enclosedBoard 62).toJson.nesting ≤ maxNesting := by decide +kernel
  have hdeep : ¬ (enclosedBoard 63).toJson.nesting ≤ maxNesting := by decide +kernel
  obtain ⟨-, hread, -⟩ := written_documents_read_back (enclosedBoard 62)
  obtain ⟨-, hunread, -⟩ := written_documents_read_back (enclosedBoard 63)
  rw [if_pos hfits] at hread
  rw [if_neg hdeep] at hunread
  exact ⟨hread, hunread⟩

end Document

end GridGame
