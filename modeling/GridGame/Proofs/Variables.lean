import GridGame.Proofs.Programs
import GridGame.Proofs.Uses

/-!
# Variables of generated programs

Lowering keeps no table of variables: what a name holds is found by looking back through the tree.
A compiler of the generated code reads it from the front and keeps such a table, with one block for
the setup and another one, inside it, for the body of the game loop. Here the table is kept while
the generated statements are gone through in the order in which they are written, and it agrees
with what lowering finds by looking back.

The invariant is `Agrees`: a name that can be seen has the type in the table that its latest
assignment gives it, and a name that cannot be seen is not in the innermost block.
-/

namespace GridGame

open Code

/-! ### Tables -/

/-- The variables of a block with what they hold, in the order of their declarations. -/
abbrev Block := List (String × ValueType)

namespace Block

/-- What a name holds, where the innermost block comes first. -/
def type? (blocks : List Block) (name : String) : Option ValueType :=
  blocks.findSome? fun block => block.lookup name

def after (block : Block) (st : Statement) : Block := block ++ st.declared?.toList

lemma type?_cons (block : Block) (outer : List Block) (name : String) :
    type? (block :: outer) name = (block.lookup name).or (type? outer name) := by
  unfold type?
  rw [List.findSome?_cons]
  cases block.lookup name with
  | none => rfl
  | some type => rfl

/-- What a name holds stays known when more variables are declared. -/
lemma type?_of_append {block : Block} {name : String} {type : ValueType} (more : Block)
    (h : type? [block] name = some type) : type? [block ++ more] name = some type := by
  rw [type?_cons] at h ⊢
  rw [List.lookup_append, Option.or_assoc]
  cases hlookup : block.lookup name with
  | none =>
    rw [hlookup] at h
    cases h
  | some found =>
    rw [hlookup] at h
    exact h

lemma lookup_after {block : Block} {st : Statement} {x : String} {type : ValueType}
    (hdeclared : st.declared? = some (x, type)) (hx : block.lookup x = none) (name : String) :
    (block.after st).lookup name = if x = name then some type else block.lookup name := by
  simp only [after, hdeclared, Option.toList_some, List.lookup_append, List.lookup_cons]
  split_ifs with heq
  · subst heq
    simp [hx]
  · have hne : (name == x) = false := by simpa using Ne.symm heq
    simp [hne]

end Block

namespace Tree

/-- A run through statements and the nodes they come from, while declared variables are put into
the innermost block with the types they are written with. No name is declared twice in the block.
Every name that a statement uses is in the table by then, with the type that is found for it by
looking back from its node. -/
inductive Tabulated (t : Tree) (defaults : PieceDefaults) (outer : List Block) :
    Block → List Nat → List Statement → Block → Prop
  | done {block : Block} : Tabulated t defaults outer block [] [] block
  | step {block block' : Block} {n : Nat} {nodes : List Nat} {st : Statement}
      {statements : List Statement}
      (lowered : (t.lowerStatement defaults n).outcome = .ok st)
      (once : ∀ name type, st.declared? = some (name, type) → block.lookup name = none)
      (written : ∀ name type, st.declared? = some (name, type) →
        ∃ rest, st.render = type.declarator name ++ rest)
      (names : (t.statementUses n st).map t.identName? = st.names.map some)
      (types : ∀ u ∈ t.statementUses n st, ∃ name type, t.identName? u = some name ∧
        Block.type? (block :: outer) name = some type ∧ t.HasType u type)
      (rest : Tabulated t defaults outer (block.after st) nodes statements block') :
      Tabulated t defaults outer block (n :: nodes) (st :: statements) block'

variable {t : Tree} {defaults : PieceDefaults} {outer : List Block}

/-- A run only adds to its block. -/
lemma Tabulated.exists_append {block block' : Block} {nodes : List Nat}
    {statements : List Statement}
    (h : t.Tabulated defaults outer block nodes statements block') :
    ∃ more, block' = block ++ more := by
  induction h with
  | done => exact ⟨[], by simp⟩
  | @step block _ _ _ st _ _ _ _ _ _ _ ih =>
    obtain ⟨more, hmore⟩ := ih
    exact ⟨st.declared?.toList ++ more, by rw [hmore, Block.after, List.append_assoc]⟩

lemma Tabulated.append {block block' block'' : Block} {nodes nodes' : List Nat}
    {statements statements' : List Statement}
    (h : t.Tabulated defaults outer block nodes statements block')
    (h' : t.Tabulated defaults outer block' nodes' statements' block'') :
    t.Tabulated defaults outer block (nodes ++ nodes') (statements ++ statements') block'' := by
  induction h with
  | done => exact h'
  | step lowered once written names types _ ih =>
    exact .step lowered once written names types (ih h')

/-! ### Statements and the table -/

/-- The table agrees with what can be seen, where `seen` gives the latest visible assignments. -/
structure Agrees (t : Tree) (seen : String → Option Nat) (block : Block) (outer : List Block) :
    Prop where
  absent : ∀ name, seen name = none → block.lookup name = none
  typed : ∀ name a, seen name = some a →
    ∃ type, Block.type? (block :: outer) name = some type ∧ t.AssignsType a type

/-- What can be seen after a node. -/
def seenAfter (t : Tree) (seen : String → Option Nat) (n : Nat) (name : String) : Option Nat :=
  if t.assignedName? n = some name then some n else seen name

namespace Numbered

variable (h : t.Numbered)
include h

/-- A declared name could not be seen before, and its type is that of the assignment. -/
lemma of_declared? {n : Nat} {st : Statement} {name : String} {type : ValueType}
    (hcode : t.StatementCode defaults n st) (hdeclared : st.declared? = some (name, type)) :
    t.assignedName? n = some name ∧ t.binding? n name = none ∧ t.AssignsType n type := by
  cases hcode with
  | declare hkind htarget hvalue hname hnew hinitial =>
    cases hdeclared
    refine ⟨assignedName?_eq_some.mpr ⟨hkind, _, htarget, hname⟩, ?_, _, hvalue, hinitial.hasType⟩
    rw [← hnew]
    exact (h.binding?_of_first htarget name).symm
  | change => cases hdeclared
  | print => cases hdeclared
  | place => cases hdeclared

/-- An assignment to a name that could be seen before gives it another value of the same type. -/
lemma of_not_declared? {n : Nat} {st : Statement} {name : String}
    (hcode : t.StatementCode defaults n st) (hdeclared : st.declared? = none)
    (hassigns : t.assignedName? n = some name) :
    ∃ a type, t.binding? n name = some a ∧ t.AssignsType a type ∧ t.AssignsType n type := by
  obtain ⟨hassign, target', htarget', hname'⟩ := assignedName?_eq_some.mp hassigns
  cases hcode with
  | declare => cases hdeclared
  | @change target _ _ type _ hkind htarget hvalue hname hempty hpiece hold htype hchange =>
    rw [htarget] at htarget'
    cases htarget'
    rw [hname] at hname'
    cases hname'
    obtain ⟨a, ha, hatype⟩ := (hasType_of_identName? hname).mp hold
    rw [h.binding?_of_first htarget] at ha
    exact ⟨a, type, ha, hatype, _, hvalue, htype⟩
  | print hkind => simp [hkind] at hassign
  | place hkind => simp [hkind] at hassign

/-- After a declaration the table has one more name, and that name can be seen now. -/
lemma agrees_of_declared? {n : Nat} {st : Statement} {block : Block} {x : String}
    {type : ValueType} (hcode : t.StatementCode defaults n st)
    (hdeclared : st.declared? = some (x, type)) (hagrees : t.Agrees (t.binding? n) block outer) :
    t.Agrees (t.seenAfter (t.binding? n) n) (block.after st) outer := by
  obtain ⟨hassigns, hunseen, htype⟩ := h.of_declared? hcode hdeclared
  have hlookup := Block.lookup_after hdeclared (hagrees.absent x hunseen)
  constructor
  · intro name hname
    rw [hlookup]
    simp only [seenAfter, hassigns, Option.some.injEq] at hname
    split_ifs at hname ⊢
    exact hagrees.absent name hname
  · intro name a ha
    rw [Block.type?_cons, hlookup]
    simp only [seenAfter, hassigns, Option.some.injEq] at ha
    split_ifs at ha ⊢
    · cases ha
      exact ⟨type, rfl, htype⟩
    · rw [← Block.type?_cons]
      exact hagrees.typed name a ha

/-- Other statements leave the table as it is, and the types of the names with it. -/
lemma agrees_of_not_declared? {n : Nat} {st : Statement} {block : Block}
    (hcode : t.StatementCode defaults n st) (hdeclared : st.declared? = none)
    (hagrees : t.Agrees (t.binding? n) block outer) :
    t.Agrees (t.seenAfter (t.binding? n) n) (block.after st) outer := by
  have hafter : block.after st = block := by simp [Block.after, hdeclared]
  rw [hafter]
  constructor
  · intro name hname
    unfold seenAfter at hname
    split_ifs at hname
    exact hagrees.absent name hname
  · intro name a ha
    unfold seenAfter at ha
    split_ifs at ha with hassigns
    · cases ha
      obtain ⟨b, type, hb, hbtype, hntype⟩ := h.of_not_declared? hcode hdeclared hassigns
      obtain ⟨type', htable, hbtype'⟩ := hagrees.typed name b hb
      rw [hbtype'.unique hbtype] at htable
      exact ⟨type, htable, hntype⟩
    · exact hagrees.typed name a ha

/-- A statement finds in the table what it uses, and leaves a table that agrees with what can be
seen after it. -/
lemma tabulated_step {n : Nat} {st : Statement} {block : Block}
    (hlowered : (t.lowerStatement defaults n).outcome = .ok st)
    (hagrees : t.Agrees (t.binding? n) block outer) :
    t.Tabulated defaults outer block [n] [st] (block.after st) ∧
      t.Agrees (t.seenAfter (t.binding? n) n) (block.after st) outer := by
  have hcode := statementCode_of_lowerStatement hlowered
  have huses := h.usesFrom_of_statementCode hcode
  constructor
  · refine .step hlowered ?_ (fun _ _ => Statement.exists_render_of_declared?) huses.names ?_ .done
    · intro name type hdeclared
      exact hagrees.absent name (h.of_declared? hcode hdeclared).2.1
    · intro u hu
      obtain ⟨name, type, hname, htype, hbinding⟩ := huses.typed u hu
      obtain ⟨a, ha, hatype⟩ := (hasType_of_identName? hname).mp htype
      obtain ⟨type', htable, hatype'⟩ := hagrees.typed name a (hbinding ▸ ha)
      rw [hatype'.unique hatype] at htable
      exact ⟨name, type, hname, htable, htype⟩
  · cases hdeclared : st.declared? with
    | none => exact h.agrees_of_not_declared? hcode hdeclared hagrees
    | some entry => exact h.agrees_of_declared? hcode hdeclared hagrees

end Numbered

/-! ### Sections and the table -/

/-- The statements that a child of a scope adds to the section of that scope: those of a game are
in a section of their own. -/
def AddsTo (t : Tree) (defaults : PieceDefaults) (c : Nat) (added : List Statement) : Prop :=
  (t.kind c = .game ∧ added = []) ∨
    ∃ st, (t.lowerStatement defaults c).outcome = .ok st ∧ added = [st]

/-- What can be seen in a scope after some of its children. -/
def seenIn (t : Tree) (scope : Nat) (children : List Nat) (name : String) : Option Nat :=
  (t.latest? children name).or (t.binding? scope name)

lemma seenIn_concat (t : Tree) (scope : Nat) (children : List Nat) (c : Nat) :
    t.seenIn scope (children ++ [c]) = t.seenAfter (t.seenIn scope children) c := by
  funext name
  simp only [seenIn, seenAfter, latest?_append]
  split_ifs with hassigns
  · simp [latest?, hassigns]
  · simp [latest?, hassigns]

lemma earlier_of_split {scope c : Nat} {pre post : List Nat}
    (h : t.children scope = pre ++ c :: post) : t.earlier scope c = pre := by
  have hnodup := t.nodup_children scope
  rw [h] at hnodup
  have hpre : ∀ a ∈ pre, (a != c) = true := by
    intro a ha
    have := (List.nodup_append.mp hnodup).2.2 a ha c (List.mem_cons_self ..)
    simpa using this
  rw [earlier, h, List.takeWhile_append_of_pos hpre]
  simp

lemma StatementCode.kind_ne_game {n : Nat} {st : Statement} (h : t.StatementCode defaults n st) :
    t.kind n ≠ .game := by
  cases h with
  | declare hkind => simp [hkind]
  | change hkind => simp [hkind]
  | print hkind => simp [hkind]
  | place hkind => simp [hkind]

namespace Numbered

variable (h : t.Numbered)
include h

lemma binding?_of_split {scope c : Nat} {pre post : List Nat}
    (hsplit : t.children scope = pre ++ c :: post) : t.binding? c = t.seenIn scope pre := by
  funext name
  have hc : c ∈ t.children scope := by simp [hsplit]
  rw [binding?_of_parent ((h.mem_children c scope).mp hc), earlier_of_split hsplit, seenIn]

/-- Some children of a scope keep the table and what can be seen in agreement. -/
lemma tabulated_run {scope : Nat} {pre nodes post : List Nat} {added : List (List Statement)}
    {block : Block} (hsplit : t.children scope = pre ++ (nodes ++ post))
    (hadds : List.Forall₂ (t.AddsTo defaults) nodes added)
    (hagrees : t.Agrees (t.seenIn scope pre) block outer) :
    ∃ block', t.Tabulated defaults outer block (nodes.filter (t.kind · ≠ .game)) added.flatten
        block' ∧
      t.Agrees (t.seenIn scope (pre ++ nodes)) block' outer := by
  induction hadds generalizing pre block with
  | nil => exact ⟨block, .done, by simpa using hagrees⟩
  | @cons c statements nodes added hc _ ih =>
    have hnext : t.children scope = (pre ++ [c]) ++ (nodes ++ post) := by simp [hsplit]
    rcases hc with ⟨hgame, rfl⟩ | ⟨st, hst, rfl⟩
    · -- a game assigns nothing in the scope it stands in
      have hseen : t.seenIn scope (pre ++ [c]) = t.seenIn scope pre := by
        rw [seenIn_concat]
        funext name
        simp [seenAfter, assignedName?, hgame]
      obtain ⟨block', hrun, hagrees'⟩ := ih hnext (hseen ▸ hagrees)
      refine ⟨block', ?_, by simpa using hagrees'⟩
      simpa [hgame] using hrun
    · have hkind := (statementCode_of_lowerStatement hst).kind_ne_game
      rw [← h.binding?_of_split hsplit] at hagrees
      obtain ⟨hstep, hagrees⟩ := h.tabulated_step hst hagrees
      rw [h.binding?_of_split hsplit, ← seenIn_concat] at hagrees
      obtain ⟨block', hrun, hagrees'⟩ := ih hnext hagrees
      refine ⟨block', ?_, by simpa using hagrees'⟩
      simpa [hkind] using hstep.append hrun

end Numbered

variable {parts : List Sections} {nodes : List Nat}

lemma addsTo_setup
    (h : List.Forall₂ (fun c part => (t.lowerSection defaults c).outcome = .ok part) nodes parts) :
    List.Forall₂ (t.AddsTo defaults) nodes (parts.map Sections.setup) := by
  rw [List.forall₂_map_right_iff]
  refine h.imp fun c part hpart => ?_
  rcases lowerSection_eq_ok.mp hpart with ⟨hkind, game, -, rfl⟩ | ⟨-, st, hst, rfl⟩
  · exact .inl ⟨hkind, rfl⟩
  · exact .inr ⟨st, hst, rfl⟩

/-- The statements of the game section are those below the games. -/
lemma lowered_game
    (h : List.Forall₂ (fun c part => (t.lowerSection defaults c).outcome = .ok part) nodes parts) :
    List.Forall₂ (fun c st => (t.lowerStatement defaults c).outcome = .ok st)
      ((nodes.filter (t.kind · = .game)).flatMap t.children) (parts.flatMap Sections.game) := by
  induction h with
  | nil => exact .nil
  | cons hpart _ ih =>
    rcases lowerSection_eq_ok.mp hpart with ⟨hkind, game, hgame, rfl⟩ | ⟨hkind, st, -, rfl⟩
    · simpa [hkind] using List.rel_append hgame ih
    · simpa [hkind] using ih

lemma addsTo_game {statements : List Statement}
    (h : List.Forall₂ (fun c st => (t.lowerStatement defaults c).outcome = .ok st) nodes
      statements) :
    List.Forall₂ (t.AddsTo defaults) nodes (statements.map fun st => [st]) ∧
      nodes.filter (t.kind · ≠ .game) = nodes := by
  constructor
  · rw [List.forall₂_map_right_iff]
    exact h.imp fun c st hst => .inr ⟨st, hst, rfl⟩
  · have hkinds := h.imp fun c st hst =>
      And.intro (statementCode_of_lowerStatement hst).kind_ne_game hst
    obtain ⟨hkinds, -⟩ := (List.forall₂_and_left (p := fun c => t.kind c ≠ .game) _ _).mp hkinds
    simpa [List.filter_eq_self] using hkinds

namespace Numbered

variable (h : t.Numbered)
include h

/-- At the start nothing can be seen, and the table is empty. -/
lemma agrees_root : t.Agrees (t.seenIn t.root []) [] [] := by
  have htop : t.parent? t.root = none := (h.parent_eq_none t.root h.root_lt).mpr rfl
  have hnone (name : String) : t.seenIn t.root [] name = none := by
    simp [seenIn, latest?, binding?_of_top htop]
  constructor
  · intro name _
    rfl
  · intro name a ha
    rw [hnone] at ha
    cases ha

/-- A game starts with an empty block inside that of the setup, whose later statements only add
to what the game can see. -/
lemma agrees_game {game : Nat} {pre post : List Nat} {block : Block} (more : Block)
    (hsplit : t.children t.root = pre ++ game :: post)
    (hagrees : t.Agrees (t.seenIn t.root pre) block []) :
    t.Agrees (t.seenIn game []) [] [block ++ more] := by
  have hseen : t.seenIn game [] = t.seenIn t.root pre := by
    rw [← h.binding?_of_split hsplit]
    funext name
    simp [seenIn, latest?]
  rw [hseen]
  constructor
  · intro name _
    rfl
  · intro name a ha
    obtain ⟨type, htable, htype⟩ := hagrees.typed name a ha
    refine ⟨type, ?_, htype⟩
    rw [Block.type?_cons, List.lookup_nil, Option.none_or]
    exact Block.type?_of_append more htable

/-- The setup, where the table at some point of it is known to agree with what can be seen. -/
lemma tabulated_setup {pre post : List Nat} (hsplit : t.children t.root = pre ++ post)
    (hparts : List.Forall₂ (fun c part => (t.lowerSection defaults c).outcome = .ok part)
      (t.children t.root) parts) :
    ∃ block more, t.Agrees (t.seenIn t.root pre) block [] ∧
      t.Tabulated defaults [] [] t.setupNodes (parts.flatMap Sections.setup) (block ++ more) := by
  have hadds := addsTo_setup hparts
  have hpre := List.forall₂_take pre.length hadds
  have hpost := List.forall₂_drop pre.length hadds
  rw [hsplit, List.take_left] at hpre
  rw [hsplit, List.drop_left] at hpost
  have hstart : t.children t.root = [] ++ (pre ++ post) := hsplit
  have hend : t.children t.root = pre ++ (post ++ []) := by simpa using hsplit
  obtain ⟨block, hrun, hagrees⟩ := h.tabulated_run hstart hpre h.agrees_root
  obtain ⟨block', hrun', -⟩ := h.tabulated_run hend hpost hagrees
  obtain ⟨more, rfl⟩ := hrun'.exists_append
  refine ⟨block, more, hagrees, ?_⟩
  have happend := hrun.append hrun'
  rw [← List.filter_append, ← hsplit, ← List.flatten_append, List.take_append_drop] at happend
  exact happend

/-- Both sections, where the game stands inside the block of the whole setup. -/
lemma tabulated_sections (hgames : t.games.length ≤ 1)
    (hparts : List.Forall₂ (fun c part => (t.lowerSection defaults c).outcome = .ok part)
      (t.children t.root) parts) :
    ∃ setupBlock gameBlock,
      t.Tabulated defaults [] [] t.setupNodes (parts.flatMap Sections.setup) setupBlock ∧
      t.Tabulated defaults [setupBlock] [] t.gameNodes (parts.flatMap Sections.game)
        gameBlock := by
  have hlowered : List.Forall₂ (fun c st => (t.lowerStatement defaults c).outcome = .ok st)
      (t.games.flatMap t.children) (parts.flatMap Sections.game) := lowered_game hparts
  rw [gameNodes]
  match hfilter : t.games with
  | [] =>
    rw [hfilter, List.flatMap_nil, List.forall₂_nil_left_iff] at hlowered
    have hwhole : t.children t.root = [] ++ t.children t.root := rfl
    obtain ⟨block, more, -, hsetup⟩ := h.tabulated_setup hwhole hparts
    refine ⟨_, [], hsetup, ?_⟩
    rw [hlowered]
    exact .done
  | [game] =>
    rw [hfilter, List.flatMap_singleton] at hlowered
    have hmem : game ∈ t.children t.root :=
      List.mem_of_mem_filter (hfilter ▸ List.mem_singleton_self game)
    obtain ⟨pre, post, hsplit⟩ := List.append_of_mem hmem
    obtain ⟨block, more, hagrees, hsetup⟩ := h.tabulated_setup hsplit hparts
    obtain ⟨hadds, hnodes⟩ := addsTo_game hlowered
    have hwhole : t.children game = [] ++ (t.children game ++ []) := by simp
    obtain ⟨gameBlock, hrun, -⟩ := h.tabulated_run hwhole hadds (h.agrees_game more hsplit hagrees)
    refine ⟨_, gameBlock, hsetup, ?_⟩
    rw [hnodes, ← List.flatMap_def, List.flatMap_singleton'] at hrun
    simpa using hrun
  | _ :: _ :: _ =>
    rw [hfilter] at hgames
    simp at hgames

end Numbered

/-- In a program that is generated from a finished tree with at most one game, the table of
variables agrees with looking back. The statements of the setup are gone through first, and then
those of the game in a block of their own, as they are written. No name is declared twice in a
block; every name that a statement uses is in the table when it is used, and its type there is the
type that lowering finds by following the name back through its assignments. -/
theorem tables_agree_with_lookups (hfinished : t.Finished) (hgames : t.games.length ≤ 1)
    {settings : Settings} {program : String}
    (hgenerate : (t.generate settings).outcome = .ok program) :
    ∃ sections setup setupBlock gameBlock,
      (t.lowerSections settings.pieces t.root).outcome = .ok sections ∧
      setup.body = Statement.renderAll sections.setup ∧
      program = opening ++ renderOutline
        ⟨setup, ⟨Statement.renderAll sections.game, .rounds settings.rounds⟩⟩ ++ closing ∧
      t.Tabulated settings.pieces [] [] t.setupNodes sections.setup setupBlock ∧
      t.Tabulated settings.pieces [setupBlock] [] t.gameNodes sections.game gameBlock := by
  obtain ⟨sections, setup, hsections, hbody, hprogram⟩ :=
    generate_eq_ok hfinished.kind_root hgenerate
  obtain ⟨parts, hparts, rfl⟩ := lowerSections_eq_ok.mp hsections
  obtain ⟨setupBlock, gameBlock, hsetup, hgame⟩ :=
    hfinished.numbered.tabulated_sections hgames hparts
  exact ⟨_, setup, setupBlock, gameBlock, hsections, hbody, hprogram, hsetup, hgame⟩

/-- A game that uses and changes a variable of the setup, and declares a name of its own that the
setup declares as a text after the game. -/
def hoisting : List BuildEvent :=
  [.opened .start .none .detached] ++ assignmentEvents "x" .integer (.integer 1) ++
    [.opened .game .none .detached] ++ assignmentEvents "y" .ident (.text "x") ++
    assignmentEvents "x" .ident (.text "y") ++
    [.opened .output .none .detached, .leaf .ident (.text "y") .detached, .closed, .closed] ++
    assignmentEvents "y" .string (.text "after") ++ [.closed]

theorem tables_agree_hoisting :
    ∃ (t : Tree) (program : String), t.Finished ∧ t.games.length ≤ 1 ∧
      (t.generate {}).outcome = .ok program ∧
      ∃ sections setupBlock gameBlock,
        (t.lowerSections {} t.root).outcome = .ok sections ∧
        t.Tabulated {} [] [] t.setupNodes sections.setup setupBlock ∧
        t.Tabulated {} [setupBlock] [] t.gameNodes sections.game gameBlock := by
  have hrun : ((Builder.empty.answers hoisting).2.finish.toOption.map fun t =>
      ((t.generate {}).outcome.toOption.isSome, t.games.length)) = some (true, 1) := by
    decide +kernel
  cases hfinish : (Builder.empty.answers hoisting).2.finish with
  | error e => simp [hfinish, Except.toOption] at hrun
  | ok t =>
    simp only [hfinish, Except.toOption, Option.map_some, Option.some.injEq, Prod.mk.injEq] at hrun
    obtain ⟨hgenerated, hgame⟩ := hrun
    cases hgenerate : (t.generate {}).outcome with
    | error e => simp [hgenerate] at hgenerated
    | ok program =>
      have hfinished : t.Finished := ⟨hoisting, hfinish⟩
      have hgames : t.games.length ≤ 1 := hgame.le
      obtain ⟨sections, setup, setupBlock, gameBlock, hsections, -, -, hsetup, hgame⟩ :=
        tables_agree_with_lookups hfinished hgames hgenerate
      exact ⟨t, program, hfinished, hgames, hgenerate, sections, setupBlock, gameBlock, hsections,
        hsetup, hgame⟩

end Tree

end GridGame
