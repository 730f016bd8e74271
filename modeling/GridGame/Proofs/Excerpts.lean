import GridGame.Excerpt
import GridGame.Proofs.Fragments
import GridGame.Proofs.Origins
import GridGame.Proofs.PrintoutLayouts

/-!
# Cutting sections out of programs

The sections of a program can be cut out of its text by their markers alone (`sections_cut_out`),
whatever names, texts and conditions are written in them, as long as these do not contain the marker
of the game. All code is written in full lines, and a marker stands within a line, so no marker can
begin in one section and end in the next. The section of the game may well contain the lines that
close a program, as it is cut before the last of them.

The line ends after a marker are dropped as well. Nothing else is lost: only a change of a variable
can begin with a line end, where the name of the variable does, and no setup begins with a change
(`not_change_of_head`).
-/

namespace GridGame

/-! ### Occurrences and lines -/

namespace Text

section lines

variable {pattern s s' x y : List Char} {c : Char}

/-- What occurs around a character that it does not contain occurs before it or behind it. -/
lemma occurrence_cases (hc : c ∉ pattern) (h : s ++ c :: s' = x ++ (pattern ++ y)) :
    pattern <:+: s ∨ s ++ [c] <+: x := by
  rw [← List.append_assoc, List.append_eq_append_iff] at h
  obtain ⟨w, hw, hrest⟩ | ⟨w, hw, -⟩ := h
  · cases w with
    | nil => exact .inl ⟨x, [], by simpa using hw⟩
    | cons d w =>
      obtain ⟨rfl, -⟩ := List.cons.inj hrest
      rw [List.append_cons, List.append_eq_append_iff] at hw
      obtain ⟨v, hv, hpattern⟩ | ⟨v, hv, -⟩ := hw
      · -- the character would be the last one of the part `v` of the pattern
        rcases List.eq_nil_or_concat v with rfl | ⟨v, d, rfl⟩
        · exact .inr ⟨[], by simpa using hv⟩
        · rw [List.concat_eq_append, ← List.append_assoc] at hv
          obtain ⟨-, hd⟩ := List.append_inj' hv rfl
          cases hd
          exact absurd (by simp [hpattern]) hc
      · exact .inr ⟨v, hv.symm⟩
  · exact .inl ⟨x, w, hw.symm⟩

lemma infix_append_cons (hc : c ∉ pattern) (h : pattern <:+: s ++ c :: s') :
    pattern <:+: s ∨ pattern <:+: s' := by
  obtain ⟨x, y, h⟩ := h
  rw [List.append_assoc] at h
  rcases occurrence_cases hc h.symm with hs | ⟨w, rfl⟩
  · exact .inl hs
  · refine .inr ⟨w, y, ?_⟩
    simpa using h

/-- A text that consists of full lines. -/
def FullLines (s : List Char) : Prop := ∀ c ∈ s.getLast?, c = '\n'

lemma fullLines_nil : FullLines [] := by simp [FullLines]

lemma FullLines.append (h : FullLines s) (h' : FullLines s') : FullLines (s ++ s') := by
  intro c hc
  rw [List.getLast?_append, Option.mem_def, Option.or_eq_some_iff] at hc
  rcases hc with hc | ⟨-, hc⟩
  · exact h' c hc
  · exact h c hc

lemma fullLines_join_map {α : Type} {f : α → String} (h : ∀ a, FullLines (f a).toList)
    (items : List α) : FullLines (String.join (items.map f)).toList := by
  induction items with
  | nil => simpa using fullLines_nil
  | cons a items ih =>
    rw [List.map_cons, String.join_cons, String.toList_append]
    exact (h a).append ih

lemma getLast?_append_text {text : String} (start : String)
    (h : text.toList.getLast? = some '\n') : (start ++ text).toList.getLast? = some '\n' := by
  rw [String.toList_append, List.getLast?_append, h, Option.some_or]

lemma fullLines_of_getLast? (h : s.getLast? = some '\n') : FullLines s := by
  intro c hc
  exact (Option.some.inj (h.symm.trans hc)).symm

lemma fullLines_append {text : String} (start : String)
    (h : text.toList.getLast? = some '\n') : FullLines (start ++ text).toList :=
  fullLines_of_getLast? (getLast?_append_text start h)

/-- Full lines end with a line end, if there are any. -/
lemma FullLines.eq_nil_or (h : FullLines s) : s = [] ∨ ∃ line, s = line ++ ['\n'] := by
  rcases List.eq_nil_or_concat s with rfl | ⟨line, c, rfl⟩
  · exact .inl rfl
  · have hc : c = '\n' := h c (by simp)
    exact .inr ⟨line, by simp [hc]⟩

lemma FullLines.infix_append (h : FullLines s) (hpattern : '\n' ∉ pattern)
    (hoccurs : pattern <:+: s ++ s') : pattern <:+: s ∨ pattern <:+: s' := by
  obtain rfl | ⟨line, rfl⟩ := h.eq_nil_or
  · exact .inr hoccurs
  · rw [List.append_assoc] at hoccurs
    refine (infix_append_cons hpattern hoccurs).imp_left fun hline => ?_
    exact hline.trans (List.prefix_append ..).isInfix

/-- After full lines that do not contain a pattern, the first occurrence is the one behind them. -/
lemma FullLines.breakFirst?_append (h : FullLines s) (hpattern : '\n' ∉ pattern)
    (hnot : ¬ pattern <:+: s) (after : List Char) :
    breakFirst? pattern (s ++ (pattern ++ after)) = some (s, after) := by
  cases hbreak : breakFirst? pattern (s ++ (pattern ++ after)) with
  | none => exact absurd rfl (breakFirst?_eq_none hbreak s after)
  | some parts =>
    obtain ⟨before, rest⟩ := parts
    obtain ⟨heq, hleast⟩ := breakFirst?_eq_some hbreak
    have hle : s <+: before := by
      obtain rfl | ⟨line, rfl⟩ := h.eq_nil_or
      · exact List.nil_prefix
      · rw [List.append_assoc] at heq
        refine (occurrence_cases hpattern heq).resolve_left fun hline => hnot ?_
        exact hline.trans (List.prefix_append ..).isInfix
    obtain rfl : before = s := (hleast s after rfl).eq_of_length_le hle.length_le
    rw [List.append_cancel_left (List.append_cancel_left heq)]

lemma breakFirst?_eq_none_of_not_infix (h : ¬ pattern <:+: s) : breakFirst? pattern s = none := by
  cases hbreak : breakFirst? pattern s with
  | none => rfl
  | some parts =>
    obtain ⟨before, rest⟩ := parts
    refine absurd ⟨before, rest, ?_⟩ h
    rw [(breakFirst?_eq_some hbreak).1, List.append_assoc]

lemma not_infix_of_breakFirst? (h : breakFirst? pattern s = none) : ¬ pattern <:+: s := by
  rintro ⟨x, y, rfl⟩
  exact breakFirst?_eq_none h x y (List.append_assoc ..)

/-- Nothing is found in a text that is too short. -/
lemma breakLast?_of_length_lt (h : s.length < pattern.length) : breakLast? pattern s = none := by
  induction s with
  | nil =>
    rw [breakLast?, if_neg]
    simpa using List.length_pos_iff.mp h
  | cons c s ih =>
    have hnot : ¬ pattern.isPrefixOf (c :: s) := by
      intro hp
      exact absurd (List.isPrefixOf_iff_prefix.mp hp).length_le (by omega)
    rw [breakLast?, ih (by simp only [List.length_cons] at h; omega)]
    simp [hnot]

/-- A pattern at the end of a text is the last one. -/
lemma breakLast?_append_self (hne : pattern ≠ []) (s : List Char) :
    breakLast? pattern (s ++ pattern) = some (s, []) := by
  induction s with
  | nil =>
    cases pattern with
    | nil => contradiction
    | cons c rest =>
      have hrest : breakLast? (c :: rest) rest = none := breakLast?_of_length_lt (by simp)
      simp [breakLast?, hrest]
  | cons c s ih => rw [List.cons_append, breakLast?, ih]

end lines

end Text

/-! ### Code in full lines -/

namespace Code

open Text

lemma fullLines_copyText (target text : String) : FullLines (copyText target text).toList :=
  fullLines_append _ rfl

lemma fullLines_recopyText (target text : String) : FullLines (recopyText target text).toList :=
  fullLines_append _ rfl

lemma PieceField.fullLines_render (piece : String) (field : PieceField) :
    FullLines (field.render piece).toList := by
  cases field with
  | name text => exact fullLines_copyText _ _
  | writtenLimit | limit | count | capture | placeable | canJump => exact fullLines_append _ rfl

lemma fullLines_renderPiece (piece : String) (fields : List PieceField) :
    FullLines (renderPiece piece fields).toList := by
  rw [renderPiece, String.toList_append]
  exact FullLines.append (fullLines_append _ rfl)
    (fullLines_join_map (PieceField.fullLines_render piece) fields)

lemma PrintItem.fullLines_render (board : String) (item : PrintItem) :
    FullLines (item.render board).toList := by
  rw [item.toList_render board]
  refine fullLines_of_getLast? ?_
  rw [List.getLast?_append]
  simp

namespace Statement

lemma fullLines_renderDeclaration (name : String) (initial : Initial) :
    FullLines (renderDeclaration name initial).toList := by
  cases initial with
  | integer | blank | pieceOf => exact fullLines_append _ rfl
  | textOf | board => exact fullLines_append _ (getLast?_append_text _ rfl)
  | text text =>
    rw [renderDeclaration, String.toList_append]
    exact FullLines.append (fullLines_append _ rfl) (fullLines_copyText _ _)
  | piece fields => exact fullLines_renderPiece _ _

lemma fullLines_renderChange (name : String) (change : Change) :
    FullLines (renderChange name change).toList := by
  cases change with
  | value | textOf => exact fullLines_append _ rfl
  | text text => exact fullLines_recopyText _ _
  | keepBoard => exact fullLines_of_getLast? (by simp [renderChange])

lemma fullLines_renderPrinted (printed : Printed) : FullLines (renderPrinted printed).toList := by
  cases printed with
  | integer | text | piece => exact fullLines_append _ rfl
  | board name width height => exact fullLines_join_map (PrintItem.fullLines_render name) _

lemma fullLines_render (st : Statement) : FullLines st.render.toList := by
  cases st with
  | declare name initial => exact fullLines_renderDeclaration _ _
  | change name change => exact fullLines_renderChange _ _
  | print printed => exact fullLines_renderPrinted _
  | place => exact fullLines_append _ (getLast?_append_text _ rfl)

lemma fullLines_renderAll (statements : List Statement) :
    FullLines (renderAll statements).toList :=
  fullLines_join_map fullLines_render statements

end Statement

lemma fullLines_renderCopies (c : Catalog) : FullLines (renderCopies c).toList :=
  fullLines_join_map (fun _ => fullLines_renderPiece _ _) _

lemma fullLines_renderOccupants (board : Board) : FullLines (renderOccupants board).toList :=
  fullLines_join_map (fun _ => fullLines_append _ rfl) _

/-! ### The first character of the setup -/

lemma head?_append_text {text : String} {c : Char} (h : text.toList.head? = some c)
    (rest : String) : (text ++ rest).toList.head? = some c := by
  rw [String.toList_append, List.head?_append, h, Option.some_or]

/-- Only a change of a variable can begin with a line end. -/
lemma Statement.exists_head (st : Statement) (h : ∀ name change, st ≠ .change name change) :
    ∃ c, st.render.toList.head? = some c ∧ c ≠ '\n' := by
  cases st with
  | declare name initial =>
    have hdeclared : (declare name initial).declared? = some (name, initial.type) := rfl
    obtain ⟨rest, hrest⟩ := Statement.exists_render_of_declared? hdeclared
    rw [hrest]
    cases initial.type with
    | integer => exact ⟨'i', by simp [ValueType.declarator, ToString.toString], by decide⟩
    | text => exact ⟨'c', by simp [ValueType.declarator, ToString.toString], by decide⟩
    | piece => exact ⟨'s', by simp [ValueType.declarator, ToString.toString], by decide⟩
    | board => exact ⟨'s', by simp [ValueType.declarator, ToString.toString], by decide⟩
  | change name change => exact absurd rfl (h name change)
  | print printed =>
    refine ⟨'p', ?_, by decide⟩
    cases printed with
    | integer => simp [render, renderPrinted, integerPrintOpening]
    | text => simp [render, renderPrinted, textPrintOpening]
    | piece => simp [render, renderPrinted, textPrintOpening]
    | board name width height =>
      simp only [render, renderPrinted, Printout.render, Printout.items, Printout.border]
      simp [PrintItem.toList_render]
  | place => exact ⟨'i', by simp [render, placeOpening, ToString.toString], by decide⟩

end Code

open Code Text

namespace Tree

variable {t : Tree} {defaults : PieceDefaults}

/-- The first statement of the setup changes no variable, as none is declared before it. -/
lemma Numbered.not_change_of_head (h : t.Numbered) {n : Nat} {st : Statement}
    (hn : t.setupNodes.head? = some n) (hst : (t.lowerStatement defaults n).outcome = .ok st)
    (name : String) (change : Change) : st ≠ .change name change := by
  rintro rfl
  obtain ⟨rest, hnodes⟩ := List.head?_eq_some_iff.mp hn
  cases statementCode_of_lowerStatement hst with
  | change _ htarget _ hname _ _ hold _ _ =>
    obtain ⟨a, ha, -⟩ := (hasType_of_identName? hname).mp hold
    rw [h.binding?_of_first htarget] at ha
    have hlt : a < n := lt_of_binding? ha a List.mem_cons_self
    have hmem : a ∈ t.setupNodes :=
      h.mem_setupNodes_of_binding? (mem_setupNodes.mp (hnodes ▸ List.mem_cons_self)).1 ha
    have hsorted := t.sorted_setupNodes
    rw [hnodes] at hmem hsorted
    rcases List.mem_cons.mp hmem with rfl | hrest
    · exact absurd hlt (lt_irrefl _)
    · exact absurd (List.rel_of_pairwise_cons hsorted hrest) hlt.not_gt

end Tree

/-! ### Sections after their markers -/

/-- The outline of the same game with another ending. -/
def Outline.withEnding (o : Outline) (ending : Ending) : Outline :=
  { o with loop := { o.loop with ending := ending } }

namespace Ending

/-- The code before a loop that declares its counter. -/
def counter : Ending → String
  | .rounds count => s!"int griddy_round = {count.toNat};\n"
  | .condition _ => ""

/-- The condition on which a loop goes on. -/
def test : Ending → String
  | .rounds _ => "0 < griddy_round--"
  | .condition text => text

-- stated by hand, as unfolding the two functions takes long
@[simp] lemma counter_rounds (count : UInt32) :
    (rounds count).counter = "int griddy_round = " ++ count.toNat.repr ++ ";\n" := rfl

@[simp] lemma counter_condition (text : String) : (condition text).counter = "" := rfl

@[simp] lemma test_rounds (count : UInt32) : (rounds count).test = "0 < griddy_round--" := rfl

@[simp] lemma test_condition (text : String) : (condition text).test = text := rfl

end Ending

namespace Code

/-- The setup section after the line of its marker: statements, the players' copies of the pieces,
and their places on the board. -/
def setupCode (statements : List Statement) (s : Setup) : String :=
  Statement.renderAll statements ++ renderCopies s.catalog ++
    String.join (s.board.toList.map renderOccupants)

/-- The game section after the line of its marker: the counter, and the loop. -/
def loopCode (statements : List Statement) (ending : Ending) : String :=
  ending.counter ++ "do \x7b\n" ++ Statement.renderAll statements ++
    s!"\x7d while ({ending.test});\n"

lemma renderSetup_eq_setupCode {s : Setup} {statements : List Statement}
    (hbody : s.body = Statement.renderAll statements) :
    renderSetup s = setupMarker ++ "\n" ++ setupCode statements s := by
  cases hboard : s.board with
  | none => simp [renderSetup, setupCode, hboard, hbody, String.append_assoc]
  | some board => simp [renderSetup, setupCode, hboard, hbody, String.append_assoc]

lemma renderLoop_eq_loopCode (statements : List Statement) (ending : Ending) :
    renderLoop ⟨Statement.renderAll statements, ending⟩ =
      gameMarker ++ "\n" ++ loopCode statements ending := by
  apply String.toList_inj.mp
  cases ending with
  | rounds count => simp [renderLoop, loopCode, ToString.toString]
  | condition text => simp [renderLoop, loopCode, ToString.toString]

lemma fullLines_setupCode (statements : List Statement) (s : Setup) :
    FullLines (setupCode statements s).toList := by
  simp only [setupCode, String.toList_append]
  exact ((Statement.fullLines_renderAll _).append (fullLines_renderCopies _)).append
    (fullLines_join_map fullLines_renderOccupants _)

lemma fullLines_loopCode (statements : List Statement) (ending : Ending) :
    FullLines (loopCode statements ending).toList :=
  fullLines_append _ (getLast?_append_text _ rfl)

lemma exists_head_loopCode (statements : List Statement) (ending : Ending) :
    ∃ c, (loopCode statements ending).toList.head? = some c ∧ c ≠ '\n' := by
  cases ending with
  | rounds count => exact ⟨'i', by simp [loopCode], by decide⟩
  | condition text => exact ⟨'d', by simp [loopCode], by decide⟩

end Code

namespace Build

variable {t : Tree} {settings : Settings}

/-- Without copies of pieces, there is nothing to place. -/
lemma occupied_of_copies (b : Build t settings) (hcopies : b.copies = []) {board : Board}
    (hboard : b.setup.board = some board) : board.occupied = [] := by
  refine List.eq_nil_iff_forall_not_mem.mpr fun place hplace => ?_
  obtain ⟨x, y, o⟩ := place
  obtain ⟨howner, hpiece⟩ := b.placedFrom.listed board hboard x y o hplace
  obtain ⟨p, hp, -⟩ := List.mem_map.mp hpiece
  have hcopy : p ∈ b.copies := List.mem_flatMap.mpr ⟨o.owner, howner, hp⟩
  rw [hcopies] at hcopy
  exact List.not_mem_nil hcopy

lemma renderCopies_eq (b : Build t settings) :
    renderCopies b.setup.catalog = String.join (b.copies.map renderCopy) := rfl

/-- The setup section does not begin with a line end. -/
lemma head?_setupCode_ne (b : Build t settings) (h : t.Numbered) :
    (setupCode b.sections.setup b.setup).toList.head? ≠ some '\n' := by
  have hlowered := b.lowered_setup
  cases hsetup : b.sections.setup with
  | cons st statements =>
    rw [hsetup] at hlowered
    obtain ⟨n, nodes, hst, -, hnodes⟩ := List.forall₂_cons_right_iff.mp hlowered
    obtain ⟨c, hc, hne⟩ := st.exists_head (h.not_change_of_head (by rw [hnodes]; rfl) hst)
    have hhead : (setupCode (st :: statements) b.setup).toList.head? = some c := by
      rw [setupCode, Statement.renderAll, List.map_cons, String.join_cons]
      exact head?_append_text (head?_append_text (head?_append_text hc _) _) _
    simpa [hhead] using hne
  | nil =>
    cases hcopies : b.copies with
    | cons p copies =>
      simp [setupCode, Statement.renderAll, b.renderCopies_eq, hcopies, renderCopy, renderPiece,
        pieceOpening, ToString.toString]
    | nil =>
      cases hboard : b.setup.board with
      | none => simp [setupCode, Statement.renderAll, b.renderCopies_eq, hcopies, hboard]
      | some board =>
        simp [setupCode, Statement.renderAll, b.renderCopies_eq, hcopies, hboard, renderOccupants,
          b.occupied_of_copies hcopies hboard]

end Build

/-! ### Cutting -/

namespace Excerpt

section cutting

variable {before code : List Char} {marker program setup loop : String}

lemma untilEnd_of_marker (hlines : FullLines code) (hnot : ¬ gameMarker.toList <:+: code)
    (after : List Char) : untilEnd (code ++ (gameMarker.toList ++ after)) = code := by
  rw [untilEnd, hlines.breakFirst?_append (by decide) hnot]

lemma untilEnd_of_closing (hlines : FullLines code) (hnot : ¬ gameMarker.toList <:+: code) :
    untilEnd (code ++ closing.toList) = code := by
  have hclosing : ¬ gameMarker.toList <:+: closing.toList :=
    not_infix_of_breakFirst? (by decide +kernel)
  have hnone : ¬ gameMarker.toList <:+: code ++ closing.toList := fun hoccurs =>
    (hlines.infix_append (by decide) hoccurs).elim hnot hclosing
  rw [untilEnd, breakFirst?_eq_none_of_not_infix hnone, breakLast?_append_self (by decide)]

/-- A marker is found at the end of full lines that do not contain it, and its line is skipped. -/
lemma afterMarker?_eq (hlines : FullLines before) (hmarker : '\n' ∉ marker.toList)
    (hnot : ¬ marker.toList <:+: before) (hhead : code.head? ≠ some '\n')
    (hprogram : program.toList = before ++ (marker.toList ++ '\n' :: code)) :
    afterMarker? marker program = some (String.ofList (untilEnd code)) := by
  have hskip : code.dropWhile (· = '\n') = code := by
    cases code with
    | nil => rfl
    | cons c code => exact List.dropWhile_cons_of_neg (by simpa using hhead)
  simp [afterMarker?, hprogram, hlines.breakFirst?_append hmarker hnot, hskip]

-- `delta`, as the equation of `opening` takes long to prove
lemma fullLines_opening : FullLines opening.toList := by
  delta opening
  exact fullLines_append _ rfl

/-- The opening lines contain neither marker, as both of these contain an `E`. -/
lemma not_infix_opening (hmarker : 'E' ∈ marker.toList) :
    ¬ marker.toList <:+: opening.toList := by
  intro hoccurs
  have hmem : 'E' ∈ opening.toList := hoccurs.subset hmarker
  delta opening at hmem
  simp only [String.toList_append, List.mem_append] at hmem
  simp at hmem

/-- The setup section is what stands between the lines of the two markers. -/
lemma setup?_eq (hsetup : FullLines setup.toList) (hhead : setup.toList.head? ≠ some '\n')
    (hnot : ¬ gameMarker.toList <:+: setup.toList) (loop : String) :
    setup? (opening ++ (setupMarker ++ "\n" ++ setup) ++ (gameMarker ++ "\n" ++ loop) ++ closing) =
      some setup := by
  have hbegin : (setup.toList ++ (gameMarker.toList ++ '\n' :: (loop ++ closing).toList)).head? ≠
      some '\n' := by
    cases hlist : setup.toList with
    | nil => simp [gameMarker]
    | cons c code => simpa [hlist] using hhead
  rw [setup?, afterMarker?_eq fullLines_opening (by decide) (not_infix_opening (by decide)) hbegin
    (by simp), untilEnd_of_marker hsetup hnot, String.ofList_toList]

/-- The game section is what stands between the line of its marker and the last closing lines. -/
lemma game?_eq (hsetup : FullLines setup.toList) (hloop : FullLines loop.toList)
    (hhead : ∃ c, loop.toList.head? = some c ∧ c ≠ '\n')
    (hnot : ¬ gameMarker.toList <:+: setup.toList) (hnot' : ¬ gameMarker.toList <:+: loop.toList) :
    game? (opening ++ (setupMarker ++ "\n" ++ setup) ++ (gameMarker ++ "\n" ++ loop) ++ closing) =
      some loop := by
  have hmarker : FullLines (setupMarker ++ "\n").toList := fullLines_append _ rfl
  have hbefore : ¬ gameMarker.toList <:+:
      opening.toList ++ ((setupMarker ++ "\n").toList ++ setup.toList) := by
    intro hoccurs
    rcases fullLines_opening.infix_append (by decide) hoccurs with hoccurs | hoccurs
    · exact not_infix_opening (by decide) hoccurs
    · rcases hmarker.infix_append (by decide) hoccurs with hoccurs | hoccurs
      · have hmem : 'M' ∈ (setupMarker ++ "\n").toList := hoccurs.subset (by decide)
        simp [setupMarker] at hmem
      · exact hnot hoccurs
  have hbegin : (loop.toList ++ closing.toList).head? ≠ some '\n' := by
    obtain ⟨c, hc, hne⟩ := hhead
    simpa [List.head?_append, hc] using hne
  rw [game?, afterMarker?_eq (fullLines_opening.append (hmarker.append hsetup)) (by decide) hbefore
    hbegin (by simp), untilEnd_of_closing hloop hnot', String.ofList_toList]

end cutting

end Excerpt

namespace Tree

variable {t : Tree} {settings : Settings} {o : Outline} {ending : Ending} {program : String}

/-- The program of a collected outline is that of a build, whatever ending the game is given. -/
lemma exists_build_of_ending (hstart : t.kind t.root = .start)
    (ho : (t.outline settings).outcome = .ok o)
    (hprogram : (t.program (o.withEnding ending)).outcome = .ok program) :
    ∃ b : Build t settings,
      ((o.withEnding ending).append b.sections).setup.placeAll.state =
        { b.setup with placed := true } ∧
      program = opening ++ (setupMarker ++ "\n" ++ setupCode b.sections.setup b.setup) ++
        (gameMarker ++ "\n" ++ loopCode b.sections.game ending) ++ closing := by
  obtain ⟨⟨-, hbody⟩, hloop⟩ := outline_eq_ok ho
  obtain ⟨sections, hsections, hfailure, rfl⟩ := program_eq_ok hstart hprogram
  have happend : (o.withEnding ending).append sections =
      ⟨o.setup.withBody (Statement.renderAll sections.setup),
        ⟨Statement.renderAll sections.game, ending⟩⟩ :=
    append_of_blank (o := o.withEnding ending) hbody (by rw [Outline.withEnding, hloop]) sections
  rw [happend] at hfailure ⊢
  obtain ⟨b, -, rfl, hkept, hplaced⟩ := exists_build_of_placeAll ho hsections hfailure
  refine ⟨b, by rw [happend, hplaced], ?_⟩
  simp only [Outline.placeAll, Progress.lift, Outline.withSetup, hplaced, renderOutline]
  have hsetup : renderSetup { b.setup with placed := true } =
      setupMarker ++ "\n" ++ setupCode b.sections.setup b.setup := renderSetup_eq_setupCode hkept
  rw [hsetup, renderLoop_eq_loopCode, ← String.append_assoc]

/-- A program whose game ends as one likes consists of the opening lines, the two sections after
the lines of their markers, and the closing lines. The setup section has the statements of the setup
in the order of the tree, the players' copies of the pieces and the places of these on the board; it
can be cut out of the program if it does not contain the marker of the game. The game section is the
loop with the statements of all games in the order of the tree; if it does not contain that marker
either, it can be cut out as well. -/
theorem sections_cut_out (hfinished : t.Finished) (ho : (t.outline settings).outcome = .ok o)
    (hprogram : (t.program (o.withEnding ending)).outcome = .ok program) :
    ∃ (sections : Sections) (placed : Setup),
      (t.lowerSections settings.pieces t.root).outcome = .ok sections ∧
      List.Forall₂ (fun n st => (t.lowerStatement settings.pieces n).outcome = .ok st)
        t.setupNodes sections.setup ∧
      List.Forall₂ (fun n st => (t.lowerStatement settings.pieces n).outcome = .ok st)
        t.gameNodes sections.game ∧
      placed = ((o.withEnding ending).append sections).setup.placeAll.state ∧
      program = opening ++ (setupMarker ++ "\n" ++ setupCode sections.setup placed) ++
        (gameMarker ++ "\n" ++ loopCode sections.game ending) ++ closing ∧
      (¬ gameMarker.toList <:+: (setupCode sections.setup placed).toList →
        Excerpt.setup? program = some (setupCode sections.setup placed) ∧
        (¬ gameMarker.toList <:+: (loopCode sections.game ending).toList →
          Excerpt.game? program = some (loopCode sections.game ending))) := by
  obtain ⟨b, hplaced, rfl⟩ := exists_build_of_ending hfinished.kind_root ho hprogram
  have hlines := fullLines_setupCode b.sections.setup b.setup
  refine ⟨b.sections, { b.setup with placed := true }, b.lowers, b.lowered_setup, b.lowered_game,
    hplaced.symm, rfl, fun hsetup => ⟨?_, fun hloop => ?_⟩⟩
  · exact Excerpt.setup?_eq hlines (b.head?_setupCode_ne hfinished.numbered) hsetup _
  · exact Excerpt.game?_eq hlines (fullLines_loopCode _ _) (exists_head_loopCode _ _) hsetup hloop

/-- A variable whose name contains the closing lines is declared in the setup and printed in the
game. -/
def closingInName : List BuildEvent :=
  [.opened .start .none .detached] ++ assignmentEvents ("x" ++ closing) .integer (.integer 1) ++
    [.opened .game .none .detached, .opened .output .none .detached,
      .leaf .ident (.text ("x" ++ closing)) .detached, .closed, .closed, .closed]

/-- Both sections are cut out in full, although the name of a variable and the condition of the loop
contain the closing lines. -/
theorem sections_cut_out_closingInName :
    ∃ (t : Tree) (o : Outline) (program : String), t.Finished ∧
      (t.outline {}).outcome = .ok o ∧
      (t.program (o.withEnding (.condition closing))).outcome = .ok program ∧
      Excerpt.setup? program = some ("int x" ++ closing ++ " = 1;\n") ∧
      Excerpt.game? program = some
        ("do \x7b\nprintf(\"%d\\n\", x" ++ closing ++ ");\n\x7d while (" ++ closing ++ ");\n") := by
  obtain ⟨t, hfinished, hprogram, hcode⟩ := exists_finished_of_check closingInName (fun t =>
    ((t.outline {}).outcome.toOption.any fun o =>
      (t.program (o.withEnding (.condition closing))).outcome.isOk) ∧
    ((t.outline {}).outcome.toOption.bind fun o =>
      (t.lowerSections {} t.root).outcome.toOption.map fun sections =>
        (setupCode sections.setup
          ((o.withEnding (.condition closing)).append sections).setup.placeAll.state,
          loopCode sections.game (.condition closing))) =
      some ("int x" ++ closing ++ " = 1;\n",
        "do \x7b\nprintf(\"%d\\n\", x" ++ closing ++ ");\n\x7d while (" ++ closing ++ ");\n"))
    (by decide +kernel)
  obtain ⟨o, ho, hok⟩ := (Option.any_eq_true ..).mp hprogram
  rw [ho] at hcode
  have ho := toOption_eq_some.mp ho
  obtain ⟨program, hprogram⟩ := exists_of_isOk hok
  obtain ⟨sections, placed, hsections, -, -, rfl, -, hcut⟩ :=
    sections_cut_out hfinished ho hprogram
  rw [Option.bind_some, toOption_eq_some.mpr hsections, Option.map_some, Option.some.injEq,
    Prod.mk.injEq] at hcode
  obtain ⟨hsetup, hloop⟩ := hcode
  rw [hsetup, hloop] at hcut
  obtain ⟨hsetup, hgame⟩ := hcut (not_infix_of_breakFirst? (by decide +kernel))
  exact ⟨t, o, program, hfinished, ho, hprogram, hsetup,
    hgame (not_infix_of_breakFirst? (by decide +kernel))⟩

end Tree

end GridGame
