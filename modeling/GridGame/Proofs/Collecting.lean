import GridGame.Proofs.Identifiers
import GridGame.Proofs.PropertyValues
import Mathlib.Data.List.Sort

/-!
# Collecting declarations

Before code is written, a walk through the whole program takes up the boards and pieces that are
assigned anywhere in it. The walk keeps the nodes that are still to be visited on a stack
(`collect_eq`). It comes to the same as taking up one node after the other by number, up to the
first failure (`visitPending_root`).

Whether the walk succeeds depends on the program as a whole: on the sizes of all boards, on all
properties of all pieces, and on the names of the pieces (`Collectable`).
-/

namespace GridGame

open Progress

namespace Setup

/-! ### Visits -/

/-- Take up what a node declares, if it declares something. -/
def visit (t : Tree) (s : Setup) (n : Nat) : Progress Setup SetupError :=
  match t.declaration? n with
  | some d => .once s (declare t s d)
  | none => .finished s

/-- Visit some nodes one after the other, up to the first failure. -/
def visitAll (t : Tree) : Setup → List Nat → Progress Setup SetupError
  | s, [] => .finished s
  | s, n :: rest => (visit t s n).andThen fun s => visitAll t s rest

/-- Visit the first of the nodes on a stack, and go on with its children in front of the others. -/
def visitPending (t : Tree) (s : Setup) (pending : List Nat) : Progress Setup SetupError :=
  match pending with
  | [] => .finished s
  | n :: rest => (visit t s n).andThen fun s => visitPending t s (t.children n ++ rest)
termination_by (pending.flatMap t.subtree).length
decreasing_by
  simp only [List.flatMap_append, List.flatMap_cons, t.subtree_eq n, List.length_append,
    List.length_cons]
  omega

/-- Tell what has been collected. -/
def tellCollected (s : Setup) : Progress Setup SetupError :=
  ⟨s, [.collected s.catalog.size (s.board.map Board.name)], none⟩

variable {t : Tree}

lemma steps_declare_eq (s : Setup) (nodes : List Nat) :
    steps (declare t) s (nodes.filterMap t.declaration?) = visitAll t s nodes := by
  induction nodes generalizing s with
  | nil => rfl
  | cons n nodes ih =>
    rw [visitAll, visit]
    cases hd : t.declaration? n with
    | none =>
      rw [List.filterMap_cons_none hd, ih]
      rfl
    | some d =>
      rw [List.filterMap_cons_some hd, steps]
      dsimp only [once]
      cases declare t s d with
      | error e => rfl
      | ok result =>
        simp only [ih]
        rfl

lemma visitPending_eq (s : Setup) (pending : List Nat) :
    visitPending t s pending = visitAll t s (t.walk pending) := by
  fun_induction t.walk pending generalizing s with
  | case1 => rw [visitPending, visitAll]
  | case2 n rest ih =>
    rw [visitPending, visitAll]
    simp only [ih]

lemma collect_eq (t : Tree) (s : Setup) :
    s.collect t = (visitPending t s [t.root]).andThen tellCollected := by
  rw [visitPending_eq, ← steps_declare_eq]
  rfl

lemma visitPending_root (h : t.Numbered) (s : Setup) :
    visitPending t s [t.root] = visitAll t s (List.range t.size) := by
  rw [visitPending_eq, ← h.preorder_eq_range, Tree.preorder]

end Setup

/-! ### What is assigned -/

namespace Declaration

/-- The name and size of the board that is declared, in the setup section or elsewhere. -/
def size? : Declaration → Option BoardSummary
  | .board name width height | .innerBoard name width height => some ⟨name, width, height⟩
  | .piece .. => none

end Declaration

/-- The board without pieces that has a name and size. -/
def BoardSummary.blank (b : BoardSummary) : Board := .blank b.name b.width b.height

namespace Tree

variable {t : Tree} {n : Nat}

/-- The name and size of the board that a node assigns. -/
def assignedBoard? (t : Tree) (n : Nat) : Option BoardSummary := do
  let name ← t.assignedName? n
  let value ← t.child? n 1
  match t.kind value, t.payload value with
  | .board, .dimensions width height => some ⟨name, width, height⟩
  | _, _ => none

/-- The name and the properties of the piece that a node assigns. -/
def assignedPiece? (t : Tree) (n : Nat) : Option (String × List (Nat × Nat)) := do
  let name ← t.assignedName? n
  let value ← t.child? n 1
  if t.kind value = .piece then some (name, t.propertyTable value) else none

lemma declaration?_eq (t : Tree) (n : Nat) :
    t.declaration? n = (t.assignedName? n).bind fun name =>
      (t.child? n 1).bind fun value => t.declarationOf? n name value := by
  apply Option.ext
  intro d
  rw [declaration?_eq_some]
  simp only [Option.bind_eq_some_iff]
  constructor
  · rintro ⟨name, value, hname, hvalue, hd⟩
    exact ⟨name, hname, value, hvalue, hd⟩
  · rintro ⟨name, hname, value, hvalue, hd⟩
    exact ⟨name, value, hname, hvalue, hd⟩

/-- What a node declares as far as `f` can tell, told by the value that it assigns. -/
lemma declaration?_bind {β : Type} (f : Declaration → Option β)
    {g : String → Nat → Option β}
    (hg : ∀ name value, (t.declarationOf? n name value).bind f = g name value) :
    (t.declaration? n).bind f =
      (t.assignedName? n).bind fun name => (t.child? n 1).bind fun value => g name value := by
  rw [declaration?_eq, Option.bind_assoc]
  simp only [Option.bind_assoc, hg]

lemma size?_declaration? (t : Tree) (n : Nat) :
    (t.declaration? n).bind Declaration.size? = t.assignedBoard? n := by
  refine declaration?_bind _ fun name value => ?_
  unfold declarationOf?
  split
  · next hkind hpayload =>
    rw [hkind, hpayload]
    split_ifs
    · rfl
    · rfl
  · next hkind _ =>
    rw [hkind]
    rfl
  · next hkind _ =>
    rw [hkind]
    rfl
  · next hboard _ =>
    split
    · next hkind hpayload => exact absurd hpayload (hboard _ _ hkind)
    · rfl

lemma piece?_declaration? (t : Tree) (n : Nat) :
    (t.declaration? n).bind Declaration.piece? = t.assignedPiece? n := by
  refine declaration?_bind _ fun name value => ?_
  by_cases hkind : t.kind value = .piece
  · rw [declarationOf?_of_piece name hkind, if_pos hkind]
    rfl
  · rw [if_neg hkind, Option.bind_eq_none_iff]
    intro d hd
    cases d with
    | piece => exact absurd (kind_of_declarationOf?_piece hd).1 hkind
    | board => rfl
    | innerBoard => rfl

/-- The boards to place pieces on are those that are assigned directly in the setup. -/
lemma board?_declaration? (t : Tree) (n : Nat) :
    (t.declaration? n).bind Declaration.board? =
      if t.parent? n = some t.root then (t.assignedBoard? n).map BoardSummary.blank else none := by
  rw [← size?_declaration?]
  cases hd : t.declaration? n with
  | none => simp
  | some d =>
    obtain ⟨name, value, -, -, hof⟩ := declaration?_eq_some.mp hd
    unfold declarationOf? at hof
    split at hof
    · cases hof
      split_ifs with hroot
      · rfl
      · rfl
    · cases hof
      simp [Declaration.board?, Declaration.size?]
    · cases hof
      simp [Declaration.board?, Declaration.size?]
    · cases hof

lemma lt_size_of_declaration? {d : Declaration} (h : t.declaration? n = some d) : n < t.size := by
  obtain ⟨_, value, -, hvalue, -⟩ := declaration?_eq_some.mp h
  have hmem := mem_children_of_child? hvalue
  exact (lt_of_mem_children hmem).trans (lt_size_of_mem_children hmem)

lemma lt_size_of_assignedPiece? {p : String × List (Nat × Nat)} (h : t.assignedPiece? n = some p) :
    n < t.size := by
  rw [← piece?_declaration?] at h
  obtain ⟨d, hd, -⟩ := Option.bind_eq_some_iff.mp h
  exact lt_size_of_declaration? hd

namespace Numbered

variable (h : t.Numbered)
include h

lemma declarations_eq : t.declarations = (List.range t.size).filterMap t.declaration? := by
  rw [declarations, h.preorder_eq_range]

/-- What all declarations tell is told by all nodes, in the same order. -/
lemma filterMap_declarations {β : Type} (f : Declaration → Option β) :
    t.declarations.filterMap f =
      (List.range t.size).filterMap fun n => (t.declaration? n).bind f := by
  rw [h.declarations_eq, List.filterMap_filterMap]

lemma forall_mem_declarations {β : Type} {f : Declaration → Option β} {P : β → Prop} :
    (∀ b ∈ t.declarations.filterMap f, P b) ↔ ∀ n b, (t.declaration? n).bind f = some b → P b := by
  simp only [h.filterMap_declarations, List.mem_filterMap]
  constructor
  · intro hall n b hn
    obtain ⟨d, hd, -⟩ := Option.bind_eq_some_iff.mp hn
    exact hall b ⟨n, List.mem_range.mpr (lt_size_of_declaration? hd), hn⟩
  · rintro hall b ⟨n, -, hn⟩
    exact hall n b hn

lemma children_eq_filter (p : Nat) :
    t.children p = (List.range t.size).filter fun n => t.parent? n = some p := by
  refine (t.sorted_children p).eq_of_mem_iff (List.pairwise_lt_range.filter _) fun n => ?_
  rw [List.mem_filter, List.mem_range, decide_eq_true_eq, ← h.mem_children n p]
  exact ⟨fun hn => ⟨lt_size_of_mem_children hn, hn⟩, fun hn => hn.2⟩

/-- The first board to place pieces on is assigned by a child of the root. -/
lemma findSome?_declarations :
    t.declarations.findSome? Declaration.board? =
      ((t.children t.root).findSome? t.assignedBoard?).map BoardSummary.blank := by
  rw [List.map_findSome?, ← List.head?_filterMap, ← List.head?_filterMap, h.filterMap_declarations,
    h.children_eq_filter, List.filterMap_filter]
  simp only [board?_declaration?, decide_eq_true_eq, Function.comp_apply]

end Numbered

/-! ### The whole program -/

/-- The template has the features that the properties of the piece give, later ones in place of
earlier ones. -/
def IsTemplate (t : Tree) (defaults : PieceDefaults) (piece : String × List (Nat × Nat))
    (template : Piece) : Prop :=
  ∃ features, List.Forall₂ t.Gives piece.2 features ∧
    features.foldl Feature.set (.template piece.1 defaults) = template

/-- Everything that is assigned can be collected: boards have squares, the properties of pieces give
features, and no two pieces have the same name. -/
structure Collectable (t : Tree) : Prop where
  boards : ∀ n b, t.assignedBoard? n = some b → b.width ≠ 0 ∧ b.height ≠ 0
  properties : ∀ n p, t.assignedPiece? n = some p → ∀ entry ∈ p.2, ∃ f, t.Gives entry f
  names : ∀ n m p q, t.assignedPiece? n = some p → t.assignedPiece? m = some q → p.1 = q.1 → n = m

lemma pairwise_range_iff {R : Nat → Nat → Prop} {k : Nat} :
    (List.range k).Pairwise R ↔ ∀ n m, n < m → m < k → R n m := by
  rw [List.pairwise_iff_getElem]
  simp only [List.length_range, List.getElem_range]
  constructor
  · intro h n m hnm hm
    exact h n m (hnm.trans hm) hm hnm
  · intro h n m _ hm hnm
    exact h n m hnm hm

/-- The names of the pieces differ exactly if no two nodes assign a piece to one name. -/
lemma Numbered.nodup_names_iff (h : t.Numbered) :
    ((t.declarations.filterMap Declaration.piece?).map Prod.fst).Nodup ↔
      ∀ n m p q, t.assignedPiece? n = some p → t.assignedPiece? m = some q → p.1 = q.1 → n = m := by
  rw [h.filterMap_declarations]
  simp only [piece?_declaration?]
  rw [List.Nodup, List.pairwise_map, List.pairwise_filterMap, pairwise_range_iff]
  constructor
  · intro hpairs n m p q hn hm hname
    by_contra hne
    rcases Nat.lt_or_gt_of_ne hne with hlt | hlt
    · exact hpairs n m hlt (lt_size_of_assignedPiece? hm) p hn q hm hname
    · exact hpairs m n hlt (lt_size_of_assignedPiece? hn) q hm p hn hname.symm
  · intro hnames n m hlt _ p hn q hm hname
    exact absurd (hnames n m p q hn hm hname) (Nat.ne_of_lt hlt)

end Tree

namespace Setup

variable {t : Tree} {s s' : Setup} {ds : List Declaration}

/-! ### Runs of declarations -/

lemma exists_declare {d : Declaration}
    (hsized : ∀ b, d.size? = some b → b.width ≠ 0 ∧ b.height ≠ 0)
    (hpiece : ∀ p, d.piece? = some p →
      (∃ template, t.pieceTemplate s.defaults p.1 p.2 = .ok template) ∧
        p.1 ∉ s.catalog.templates.map Piece.name) :
    ∃ notice s', declare t s d = .ok (notice, s') := by
  cases d with
  | board name width height =>
    have hcheck : checkDimensions name width height = .ok () :=
      checkDimensions_eq_ok.mpr (hsized _ rfl)
    rw [declare, initBoard, hcheck]
    cases s.board with
    | none => exact ⟨_, _, rfl⟩
    | some board => exact ⟨_, _, rfl⟩
  | innerBoard name width height =>
    have hcheck : checkDimensions name width height = .ok () :=
      checkDimensions_eq_ok.mpr (hsized _ rfl)
    exact ⟨_, s, except_bind_eq_ok.mpr ⟨(), hcheck, rfl⟩⟩
  | piece name table =>
    obtain ⟨⟨template, htemplate⟩, hnew⟩ := hpiece _ rfl
    have hname : template.name = name := (Tree.pieceTemplate_keeps htemplate).2.1
    have hregister : s.catalog.register template = .ok (s.catalog.add template) :=
      Catalog.register_eq_ok.mpr ⟨hname ▸ hnew, rfl⟩
    exact ⟨_, _, except_bind_eq_ok.mpr ⟨template, htemplate,
      except_bind_eq_ok.mpr ⟨_, hregister, rfl⟩⟩⟩

/-- Declarations can all be taken up if the boards have squares, the pieces have templates, and the
names of the pieces differ from each other and from those that there are. -/
lemma failure_eq_none
    (hsized : ∀ b ∈ ds.filterMap Declaration.size?, b.width ≠ 0 ∧ b.height ≠ 0)
    (htemplates : ∀ p ∈ ds.filterMap Declaration.piece?,
      ∃ template, t.pieceTemplate s.defaults p.1 p.2 = .ok template)
    (hnames : (s.catalog.templates.map Piece.name ++
      (ds.filterMap Declaration.piece?).map Prod.fst).Nodup) :
    (steps (declare t) s ds).failure = none := by
  induction ds generalizing s with
  | nil => rfl
  | cons d ds ih =>
    have hmem {β : Type} {f : Declaration → Option β} {b : β} (hb : f d = some b) :
        b ∈ (d :: ds).filterMap f := List.mem_filterMap.mpr ⟨d, List.mem_cons_self, hb⟩
    have hlater {β : Type} {f : Declaration → Option β} {b : β} (hb : b ∈ ds.filterMap f) :
        b ∈ (d :: ds).filterMap f := by
      obtain ⟨d', hd', hb⟩ := List.mem_filterMap.mp hb
      exact List.mem_filterMap.mpr ⟨d', List.mem_cons_of_mem _ hd', hb⟩
    have hnew : ∀ p, d.piece? = some p → p.1 ∉ s.catalog.templates.map Piece.name := by
      intro p hp hold
      exact (List.nodup_append.mp hnames).2.2 p.1 hold p.1 (List.mem_map_of_mem (hmem hp)) rfl
    obtain ⟨notice, s', hstep⟩ := exists_declare (fun b hb => hsized b (hmem hb))
      fun p hp => ⟨htemplates p (hmem hp), hnew p hp⟩
    rw [steps, hstep]
    dsimp only
    have hsized' := fun b hb => hsized b (hlater hb)
    have htemplates' := fun p hp => htemplates p (hlater hp)
    cases declared_of_declare hstep with
    | board => exact ih hsized' htemplates' hnames
    | innerBoard => exact ih hsized' htemplates' hnames
    | @piece name table template htemplate _ =>
      refine ih hsized' htemplates' ?_
      have hname : template.name = name := (Tree.pieceTemplate_keeps htemplate).2.1
      simpa [Catalog.add, hname, Declaration.piece?] using hnames

/-- Each board that is declared has squares. -/
lemma sized_of_run (h : Run (declare t) s ds s') :
    ∀ b ∈ ds.filterMap Declaration.size?, b.width ≠ 0 ∧ b.height ≠ 0 := by
  induction h with
  | nil => simp
  | cons hstep _ ih =>
    cases declared_of_declare hstep with
    | board hwidth hheight => exact List.forall_mem_cons.mpr ⟨⟨hwidth, hheight⟩, ih⟩
    | innerBoard hwidth hheight => exact List.forall_mem_cons.mpr ⟨⟨hwidth, hheight⟩, ih⟩
    | piece => exact ih

/-- Either player has a copy of each template, in the same order. -/
def Copied (s : Setup) : Prop :=
  s.catalog.playerOne = s.catalog.templates.map (·.copyFor .playerOne) ∧
    s.catalog.playerTwo = s.catalog.templates.map (·.copyFor .playerTwo)

lemma copied_of_run (h : Run (declare t) s ds s') (hs : s.Copied) : s'.Copied := by
  refine h.keeps ?_ hs
  intro s d _ notice s' hstep hs
  cases declared_of_declare hstep with
  | board => exact hs
  | innerBoard => exact hs
  | piece => exact ⟨by simp [Catalog.add, hs.1], by simp [Catalog.add, hs.2]⟩

lemma names_of_templates {pieces : List (String × List (Nat × Nat))} {templates : List Piece}
    {defaults : PieceDefaults}
    (h : List.Forall₂ (fun p template => t.pieceTemplate defaults p.1 p.2 = .ok template) pieces
      templates) : templates.map Piece.name = pieces.map Prod.fst := by
  induction h with
  | nil => rfl
  | cons htemplate _ ih =>
    rw [List.map_cons, List.map_cons, ih, (Tree.pieceTemplate_keeps htemplate).2.1]

/-- Collecting fails only while declarations are taken up. -/
lemma collect_failure (t : Tree) (s : Setup) :
    (s.collect t).failure = (steps (declare t) s t.declarations).failure := by
  unfold collect andThen
  split
  · rfl
  · next hnone => exact hnone.symm

lemma collect_state (t : Tree) (s : Setup) :
    (s.collect t).state = (steps (declare t) s t.declarations).state := by
  unfold collect andThen
  split
  · rfl
  · rfl

/-- A fresh setup takes up all that a tree assigns exactly if it can be collected. -/
lemma collect_new_iff (h : t.Numbered) (defaults : PieceDefaults) :
    ((new defaults).collect t).failure = none ↔ t.Collectable := by
  rw [collect_failure]
  have hboards : (∀ b ∈ t.declarations.filterMap Declaration.size?, b.width ≠ 0 ∧ b.height ≠ 0) ↔
      ∀ n b, t.assignedBoard? n = some b → b.width ≠ 0 ∧ b.height ≠ 0 := by
    simp only [h.forall_mem_declarations, Tree.size?_declaration?]
  have hpieces : (∀ p ∈ t.declarations.filterMap Declaration.piece?,
        ∃ template, t.pieceTemplate defaults p.1 p.2 = .ok template) ↔
      ∀ n p, t.assignedPiece? n = some p → ∀ entry ∈ p.2, ∃ f, t.Gives entry f := by
    simp only [h.forall_mem_declarations, Tree.piece?_declaration?, Tree.exists_pieceTemplate]
  constructor
  · intro hnone
    have hrun := run_of_steps hnone
    obtain ⟨added, htemplates, hadded⟩ := templates_of_run hrun
    have hnodup := (uniform_of_run hrun Catalog.uniform_empty).nodup
    refine ⟨hboards.mp (sized_of_run hrun), hpieces.mp ?_, h.nodup_names_iff.mp ?_⟩
    · exact exists_forall₂.mp ⟨added, hadded⟩
    · rw [← names_of_templates hadded]
      rw [htemplates] at hnodup
      exact hnodup
  · intro hcollectable
    exact failure_eq_none (hboards.mpr hcollectable.boards) (hpieces.mpr hcollectable.properties)
      (h.nodup_names_iff.mpr hcollectable.names)

/-- A fresh setup that has taken up all that a tree assigns. -/
lemma collect_new_state (h : t.Numbered) {defaults : PieceDefaults}
    (hnone : ((new defaults).collect t).failure = none) :
    ∃ templates,
      List.Forall₂ (t.IsTemplate defaults) ((List.range t.size).filterMap t.assignedPiece?)
        templates ∧
      ((new defaults).collect t).state =
        ⟨⟨templates, templates.map (·.copyFor .playerOne), templates.map (·.copyFor .playerTwo)⟩,
          ((t.children t.root).findSome? t.assignedBoard?).map BoardSummary.blank,
          defaults, false, ""⟩ := by
  rw [collect_failure] at hnone
  rw [collect_state]
  have hrun := run_of_steps hnone
  generalize (steps (declare t) (new defaults) t.declarations).state = s at hrun
  obtain ⟨templates, htemplates, hadded⟩ := templates_of_run hrun
  obtain ⟨hone, htwo⟩ := copied_of_run hrun ⟨rfl, rfl⟩
  obtain ⟨hdefaults, hbody⟩ : Holds defaults "" s :=
    hrun.keeps (fun _ _ _ _ _ hstep hs => hs.declare hstep) ⟨rfl, rfl⟩
  have hboard : s.board = t.declarations.findSome? Declaration.board? := board_of_run hrun
  have hplaced : s.placed = false := placed_of_run hrun
  have hcatalog : s.catalog = ⟨templates, templates.map (·.copyFor .playerOne),
      templates.map (·.copyFor .playerTwo)⟩ :=
    calc s.catalog = ⟨s.catalog.templates, s.catalog.playerOne, s.catalog.playerTwo⟩ := rfl
      _ = _ := by
        rw [hone, htwo, htemplates]
        rfl
  refine ⟨templates, ?_, ?_⟩
  · rw [h.filterMap_declarations] at hadded
    simp only [Tree.piece?_declaration?] at hadded
    exact hadded.imp fun _ _ htemplate => Tree.pieceTemplate_eq_ok_iff.mp htemplate
  · calc s = ⟨s.catalog, s.board, s.defaults, s.placed, s.body⟩ := rfl
      _ = _ := by rw [hcatalog, hboard, hdefaults, hplaced, hbody, h.findSome?_declarations]

end Setup

namespace Tree

variable {t : Tree}

/-- Collecting takes up the nodes by number, up to the first failure, whatever there is already.
Starting from nothing, it succeeds exactly if all that is assigned can be collected. Then the
catalog has the assigned pieces in the order of their nodes, and the board is the first one that a
child of the root assigns. -/
theorem collect_by_number (hfinished : t.Finished) :
    (∀ o : Outline,
      o.collect t =
        ((Setup.visitPending t o.setup [t.root]).andThen Setup.tellCollected).lift o.withSetup ∧
      o.collect t =
        ((Setup.visitAll t o.setup (List.range t.size)).andThen Setup.tellCollected).lift
          o.withSetup) ∧
    ∀ settings : Settings,
      (((Outline.new settings).collect t).failure = none ↔ t.Collectable) ∧
      (t.Collectable → ∃ templates,
        List.Forall₂ (t.IsTemplate settings.pieces)
          ((List.range t.size).filterMap t.assignedPiece?) templates ∧
        ((Outline.new settings).collect t).state = (Outline.new settings).withSetup
          ⟨⟨templates, templates.map (·.copyFor .playerOne), templates.map (·.copyFor .playerTwo)⟩,
            ((t.children t.root).findSome? t.assignedBoard?).map BoardSummary.blank,
            settings.pieces, false, ""⟩) := by
  have h := hfinished.numbered
  refine ⟨fun o => ?_, fun settings => ?_⟩
  · rw [← Setup.visitPending_root h, Outline.collect, Setup.collect_eq]
    exact ⟨rfl, rfl⟩
  · have hiff : ((Outline.new settings).collect t).failure = none ↔ t.Collectable :=
      Setup.collect_new_iff h settings.pieces
    refine ⟨hiff, fun hcollectable => ?_⟩
    have hnone : ((Setup.new settings.pieces).collect t).failure = none := hiff.mpr hcollectable
    obtain ⟨templates, htemplates, hstate⟩ := Setup.collect_new_state h hnone
    exact ⟨templates, htemplates, congrArg (Outline.new settings).withSetup hstate⟩

/-- A board and a piece in a game that stands before the setup statements, and a board and a piece
after it. -/
def scatteredDeclarations : List BuildEvent :=
  [.opened .start .none .detached, .opened .game .none .detached] ++
    assignmentEvents "inner" .board (.dimensions 2 2) ++
    pieceEvents "rook" [(8, 9)] [.leaf .ident (.text "start") .detached,
      .opened .pair .none .detached, .leaf .integer (.integer 1) .detached,
      .leaf .integer (.integer 2) .detached, .closed] ++
    [.closed] ++ assignmentEvents "grid" .board (.dimensions 3 2) ++
    pieceEvents "pawn" [(18, 19)] [.leaf .ident (.text "limit") .detached,
      .leaf .integer (.integer 2) .detached] ++ [.closed]

theorem collect_scatteredDeclarations :
    ∃ t : Tree, t.Finished ∧ t.Collectable ∧ ∃ templates,
      List.Forall₂ (t.IsTemplate {}) [("rook", [(8, 9)]), ("pawn", [(18, 19)])] templates ∧
      ((Outline.new {}).collect t).state.setup.catalog.templates = templates ∧
      ((Outline.new {}).collect t).state.setup.board = some (.blank "grid" 3 2) := by
  obtain ⟨t, hfinished, hnone, hpieces, hboard⟩ := exists_finished_of_check scatteredDeclarations
    (fun t => ((Outline.new {}).collect t).failure = none ∧
      (List.range t.size).filterMap t.assignedPiece? =
        [("rook", [(8, 9)]), ("pawn", [(18, 19)])] ∧
      (t.children t.root).findSome? t.assignedBoard? = some ⟨"grid", 3, 2⟩) (by decide +kernel)
  obtain ⟨hiff, hstate⟩ := (collect_by_number hfinished).2 {}
  have hcollectable := hiff.mp hnone
  obtain ⟨templates, htemplates, hstate⟩ := hstate hcollectable
  rw [hpieces] at htemplates
  rw [hboard] at hstate
  refine ⟨t, hfinished, hcollectable, templates, htemplates, ?_, ?_⟩
  · rw [hstate]
    rfl
  · rw [hstate]
    rfl

end Tree

end GridGame
