import GridGame.Proofs.Identifiers
import GridGame.Proofs.PropertyValues

/-!
# Pieces and their copies

A piece literal is read twice. Lowering turns its properties into settings of the members of a piece
variable, one after the other, and adds the defaults that are missing. Collecting declarations sets
the same properties on a template, which starts out with the defaults, and each player's copy of the
template becomes a variable of its own. In the end all three variables have the same members.
-/

namespace GridGame

namespace Code

/-! ### Members after some settings -/

/-- What a member of a piece variable holds. -/
inductive MemberValue where
  | text (text : String)
  | number (value : Int)
deriving DecidableEq

/-- What a setting gives to its member. -/
def PieceField.value : PieceField → MemberValue
  | .name text => .text text
  | .writtenLimit v => .number v.toInt
  | .limit n | .count n => .number n.toNat
  | .capture on | .placeable on | .canJump on => .number on.toNat

/-- What a member holds after some settings, of which the last one counts. -/
def lastWrite (fields : List PieceField) (member : String) : Option MemberValue :=
  (fields.filter (·.member = member)).getLast?.map PieceField.value

@[simp] lemma lastWrite_nil (member : String) : lastWrite [] member = none := rfl

lemma lastWrite_append (fields later : List PieceField) (member : String) :
    lastWrite (fields ++ later) member = (lastWrite later member).or (lastWrite fields member) := by
  simp only [lastWrite, List.filter_append, List.getLast?_append]
  cases (later.filter (·.member = member)).getLast? with
  | none => simp
  | some field => simp

@[simp] lemma lastWrite_cons (field : PieceField) (later : List PieceField) (member : String) :
    lastWrite (field :: later) member = (lastWrite later member).or
      (if field.member = member then some field.value else none) := by
  rw [← List.singleton_append, lastWrite_append]
  by_cases h : field.member = member
  · simp [lastWrite, h]
  · simp [lastWrite, h]

/-- The members of a player's copy. -/
lemma lastWrite_copyFields (p : Piece) (member : String) :
    lastWrite (copyFields p) member =
      if member = "name" then some (.text p.displayName)
      else if member = "limit" then some (.number p.limit.toNat)
      else if member = "count" then some (.number p.count.toNat)
      else if member = "capture" then some (.number p.capture.toNat)
      else if member = "placeable" then some (.number p.placeable.toNat)
      else if member = "can_jump" then some (.number p.canJump.toNat)
      else none := by
  split_ifs with hname hlimit hcount hcapture hplaceable hjump
  · simp [copyFields, PieceField.member, PieceField.value, hname]
  · simp [copyFields, PieceField.member, PieceField.value, hlimit]
  · simp [copyFields, PieceField.member, PieceField.value, hcount]
  · simp [copyFields, PieceField.member, PieceField.value, hcapture]
  · simp [copyFields, PieceField.member, PieceField.value, hplaceable]
  · simp [copyFields, PieceField.member, PieceField.value, hjump]
  · simp [copyFields, PieceField.member, Ne.symm hname, Ne.symm hlimit, Ne.symm hcount,
      Ne.symm hcapture, Ne.symm hplaceable, Ne.symm hjump]

/-- A member is left open exactly if nothing sets it. -/
lemma lastWrite_eq_none {fields : List PieceField} {member : String} :
    lastWrite fields member = none ↔ member ∉ fields.map PieceField.member := by
  simp [lastWrite]

lemma lastWrite_filter (q : String → Bool) (fields : List PieceField) (member : String) :
    lastWrite (fields.filter fun field => q field.member) member =
      if q member then lastWrite fields member else none := by
  have hfilter : (fields.filter fun field => q field.member).filter (·.member = member) =
      if q member then fields.filter (·.member = member) else [] := by
    rw [List.filter_filter]
    split_ifs with hq
    · apply List.filter_congr
      intro field _
      by_cases h : field.member = member
      · simp [h, hq]
      · simp [h]
    · rw [List.filter_eq_nil_iff]
      intro field _
      by_cases h : field.member = member
      · simp [h, hq]
      · simp [h]
  unfold lastWrite
  rw [hfilter]
  split_ifs <;> rfl

/-- The members of a piece variable that a declaration is about. -/
def declaredMembers : List String := ["name", "limit", "capture", "placeable", "can_jump"]

end Code

open Code

/-! ### Properties -/

namespace Tree

variable {t : Tree}

/-- The setting that a property with a value is lowered to. -/
inductive PropertyCode (t : Tree) (value : Nat) : String → Option PieceField → Prop
  | start : PropertyCode t value "start" none
  | moves : PropertyCode t value "moves" none
  | name (hkind : t.kind value = .string) :
      PropertyCode t value "name" (some (.name ((t.text? value).getD "")))
  | limit {v : Int64} (hvalue : t.payload value = .integer v) :
      PropertyCode t value "limit" (some (.writtenLimit v))
  | capture {on : Bool} (hvalue : t.payload value = .boolean on) :
      PropertyCode t value "capture" (some (.capture on))
  | placeable {on : Bool} (hvalue : t.payload value = .boolean on) :
      PropertyCode t value "placeable" (some (.placeable on))
  | canJump {on : Bool} (hvalue : t.payload value = .boolean on) :
      PropertyCode t value "can_jump" (some (.canJump on))

lemma lowerLimit_eq_ok {member : String} {value : Nat} {v : Int64}
    (h : (t.lowerLimit member value).outcome = .ok v) : t.payload value = .integer v := by
  have h := Lowering.after_eq_ok.mp h
  split at h
  · next hpayload =>
    cases h
    exact hpayload
  · cases h

lemma lowerFlag_eq_ok {member : String} {value : Nat} {on : Bool}
    (h : (t.lowerFlag member value).outcome = .ok on) : t.payload value = .boolean on := by
  have h := Lowering.after_eq_ok.mp h
  split at h
  · next hpayload =>
    cases h
    exact hpayload
  · cases h

lemma propertyCode_of_lowerProperty {piece : String} {key value : Nat} {field : Option PieceField}
    (h : (t.lowerProperty piece key value).outcome = .ok field) :
    ∃ property, t.identName? key = some property ∧ t.PropertyCode value property field := by
  simp only [lowerProperty, Reported.bind_eq_ok, Lowering.ofExcept_eq_ok, requiredName_eq_ok] at h
  obtain ⟨property, hname, h⟩ := h
  refine ⟨property, hname, ?_⟩
  split at h
  · cases h
    exact .start
  · cases h
    exact .moves
  · next hkind =>
    cases h
    exact .name hkind
  · obtain ⟨v, hv, rfl⟩ := Reported.map_eq_ok.mp h
    exact .limit (lowerLimit_eq_ok hv)
  · obtain ⟨on, hon, rfl⟩ := Reported.map_eq_ok.mp h
    exact .capture (lowerFlag_eq_ok hon)
  · obtain ⟨on, hon, rfl⟩ := Reported.map_eq_ok.mp h
    exact .placeable (lowerFlag_eq_ok hon)
  · obtain ⟨on, hon, rfl⟩ := Reported.map_eq_ok.mp h
    exact .canJump (lowerFlag_eq_ok hon)
  all_goals cases h

end Tree

namespace Property

variable {t : Tree}

/-- A property that is both lowered and set on a piece changes the same member in the same way. -/
lemma lastWrite_of_setOn {piece : String} {value : Nat} {property : String}
    {field : Option PieceField} {p p' : Piece} (hcode : t.PropertyCode value property field)
    (hset : setOn t ⟨piece, property, value⟩ p = .ok p') (member : String) :
    lastWrite (copyFields p') member =
      (lastWrite field.toList member).or (lastWrite (copyFields p) member) := by
  cases hcode with
  | start =>
    obtain ⟨_, -, h⟩ := except_bind_eq_ok.mp hset
    cases h
    rfl
  | moves =>
    obtain ⟨_, -, h⟩ := except_bind_eq_ok.mp hset
    cases h
    rfl
  | name hkind =>
    obtain ⟨text, htext, h⟩ := except_bind_eq_ok.mp hset
    cases h
    obtain ⟨-, hvalue⟩ := text_eq_ok_iff.mp htext
    by_cases hmember : member = "name"
    · simp [lastWrite_copyFields, PieceField.member, PieceField.value, Piece.displayName, hmember,
        hvalue]
    · simp [lastWrite_copyFields, PieceField.member, hmember, Ne.symm hmember]
  | limit hvalue =>
    obtain ⟨n, hn, h⟩ := except_bind_eq_ok.mp hset
    cases h
    obtain ⟨v, hvalue', hcount⟩ := count_eq_ok_iff.mp hn
    cases hvalue.symm.trans hvalue'
    by_cases hmember : member = "limit"
    · simp [lastWrite_copyFields, PieceField.member, PieceField.value, hmember, hcount]
    · simp [lastWrite_copyFields, PieceField.member, Piece.displayName, hmember, Ne.symm hmember]
  | capture hvalue =>
    obtain ⟨on, hon, h⟩ := except_bind_eq_ok.mp hset
    cases h
    cases hvalue.symm.trans (flag_eq_ok_iff.mp hon)
    by_cases hmember : member = "capture"
    · simp [lastWrite_copyFields, PieceField.member, PieceField.value, hmember]
    · simp [lastWrite_copyFields, PieceField.member, Piece.displayName, hmember, Ne.symm hmember]
  | placeable hvalue =>
    obtain ⟨on, hon, h⟩ := except_bind_eq_ok.mp hset
    cases h
    cases hvalue.symm.trans (flag_eq_ok_iff.mp hon)
    by_cases hmember : member = "placeable"
    · simp [lastWrite_copyFields, PieceField.member, PieceField.value, hmember]
    · simp [lastWrite_copyFields, PieceField.member, Piece.displayName, hmember, Ne.symm hmember]
  | canJump hvalue =>
    obtain ⟨on, hon, h⟩ := except_bind_eq_ok.mp hset
    cases h
    cases hvalue.symm.trans (flag_eq_ok_iff.mp hon)
    by_cases hmember : member = "can_jump"
    · simp [lastWrite_copyFields, PieceField.member, PieceField.value, hmember]
    · simp [lastWrite_copyFields, PieceField.member, Piece.displayName, hmember, Ne.symm hmember]

end Property

namespace Tree

variable {t : Tree} {defaults : PieceDefaults}

lemma lowerPiece_eq_ok {name : String} {n : Nat} {fields : List PieceField} :
    (t.lowerPiece defaults name n).outcome = .ok fields ↔ ∃ properties,
      List.Forall₂ (fun entry field => (t.lowerProperty name entry.1 entry.2).outcome = .ok field)
        (t.propertyTable n) properties ∧
      properties.filterMap id ++ defaultFields defaults name (properties.filterMap id) =
        fields := by
  simp only [lowerPiece, Lowering.after_eq_ok, Reported.bind_eq_ok, Lowering.each_eq_ok,
    Reported.outcome_pure, Except.ok.injEq]

/-- Properties that are lowered and set on a piece one after the other change the same members. -/
lemma lastWrite_of_foldlM {name : String} {table : List (Nat × Nat)}
    {properties : List (Option PieceField)} {p p' : Piece}
    (hlowered : List.Forall₂ (fun entry field =>
      (t.lowerProperty name entry.1 entry.2).outcome = .ok field) table properties)
    (hset : table.foldlM (fun piece (key, value) =>
      Property.setOn t ⟨name, (t.identName? key).getD "", value⟩ piece) p = .ok p')
    (member : String) :
    lastWrite (copyFields p') member =
      (lastWrite (properties.filterMap id) member).or (lastWrite (copyFields p) member) := by
  induction hlowered generalizing p with
  | nil =>
    cases hset
    rfl
  | @cons entry field table properties hfield _ ih =>
    rw [List.foldlM_cons] at hset
    obtain ⟨next, hnext, hset⟩ := except_bind_eq_ok.mp hset
    obtain ⟨property, hname, hcode⟩ := propertyCode_of_lowerProperty hfield
    simp only [hname, Option.getD_some] at hnext
    have hfields :
        (field :: properties).filterMap id = field.toList ++ properties.filterMap id := by
      cases field <;> rfl
    rw [ih hset, Property.lastWrite_of_setOn hcode hnext, hfields, lastWrite_append,
      Option.or_assoc]

/-- The defaults fill the members that are not written, with what a template starts out with. -/
lemma lastWrite_defaultFields {name member : String} (written : List PieceField)
    (hmember : member ≠ "count") :
    lastWrite (defaultFields defaults name written) member =
      if member ∈ written.map PieceField.member then none
      else lastWrite (copyFields (Piece.template name defaults)) member := by
  have hcount : lastWrite [.count 0] member = none := by
    simp [PieceField.member, Ne.symm hmember]
  rw [defaultFields, lastWrite_append, hcount, Option.none_or,
    lastWrite_filter fun member => !(written.map PieceField.member).contains member]
  by_cases hwritten : member ∈ written.map PieceField.member
  · rw [if_pos hwritten, List.contains_iff_mem.mpr hwritten]
    rfl
  · have hcontains : (written.map PieceField.member).contains member = false := by
      rwa [Bool.eq_false_iff, Ne, List.contains_iff_mem]
    rw [if_neg hwritten, hcontains]
    simp [copyFields, Piece.template, Piece.displayName, PieceField.member, Ne.symm hmember]

/-- The members of a declared piece are those of its template. -/
lemma lastWrite_of_lowerPiece {name member : String} {n : Nat} {fields : List PieceField}
    {template : Piece} (hlowered : (t.lowerPiece defaults name n).outcome = .ok fields)
    (htemplate : t.pieceTemplate defaults name (t.propertyTable n) = .ok template)
    (hmember : member ≠ "count") :
    lastWrite fields member = lastWrite (copyFields template) member := by
  obtain ⟨properties, hproperties, rfl⟩ := lowerPiece_eq_ok.mp hlowered
  rw [lastWrite_append, lastWrite_defaultFields _ hmember,
    lastWrite_of_foldlM hproperties htemplate]
  split_ifs with hwritten
  · cases hvalue : lastWrite (properties.filterMap id) member with
    | none => exact absurd hwritten (lastWrite_eq_none.mp hvalue)
    | some value => rfl
  · rw [lastWrite_eq_none.mpr hwritten, Option.or_none, Option.none_or]

end Tree

/-! ### Copies -/

lemma lastWrite_copyFields_shared {member : String} (hmember : member ≠ "count") (p : Piece) :
    lastWrite (copyFields p.shared) member = lastWrite (copyFields p) member := by
  simp [lastWrite_copyFields, Piece.shared, Piece.displayName, hmember]

lemma exists_lastWrite_copyFields (p : Piece) {member : String} (h : member ∈ declaredMembers) :
    ∃ held, lastWrite (copyFields p) member = some held := by
  simp only [declaredMembers, List.mem_cons, List.not_mem_nil, or_false] at h
  rcases h with rfl | rfl | rfl | rfl | rfl
  all_goals exact ⟨_, lastWrite_copyFields p _⟩

namespace Build

variable {t : Tree} {settings : Settings}

/-- Either player has a copy of every template. -/
lemma exists_copy_of_template (b : Build t settings) {template : Piece}
    (htemplate : template ∈ b.declared.catalog.templates) {owner : Owner}
    (howner : owner ∈ Owner.players) :
    ∃ copy ∈ b.copies, copy.owner = owner ∧ copy.shared = template.shared := by
  have hmem : template.shared ∈ (b.setup.catalog.pieces owner).map Piece.shared := by
    rw [b.placedFrom.uniform.shared, b.placedFrom.shared]
    exact List.mem_map_of_mem htemplate
  obtain ⟨copy, hcopy, hshared⟩ := List.mem_map.mp hmem
  exact ⟨copy, List.mem_flatMap.mpr ⟨owner, howner, hcopy⟩,
    b.placedFrom.uniform.owned owner copy hcopy, hshared⟩

/-- Every piece literal that is assigned to a name has a template in the catalog. -/
lemma exists_template (h : t.Numbered) (b : Build t settings) {n value : Nat} {name : String}
    (hn : n < t.size) (hname : t.assignedName? n = some name) (hvalue : t.child? n 1 = some value)
    (hkind : t.kind value = .piece) :
    ∃ template ∈ b.declared.catalog.templates,
      t.pieceTemplate settings.pieces name (t.propertyTable value) = .ok template := by
  have hd : t.declaration? n = some (.piece name (t.propertyTable value)) :=
    Tree.declaration?_eq_some.mpr
      ⟨name, value, hname, hvalue, Tree.declarationOf?_of_piece name hkind⟩
  have hmem : (name, t.propertyTable value) ∈ t.declarations.filterMap Declaration.piece? := by
    rw [Tree.declarations, h.preorder_eq_range, List.mem_filterMap]
    exact ⟨_, List.mem_filterMap.mpr ⟨n, List.mem_range.mpr hn, hd⟩, rfl⟩
  exact forall₂_exists_right b.templates_declared hmem

lemma qualifiedName_mem_ownNames {b : Build t settings} {copy : Piece} (h : copy ∈ b.copies) :
    copy.qualifiedName ∈ b.ownNames :=
  List.mem_append_left _ (List.mem_cons_of_mem _ (List.mem_map_of_mem h))

/-- The variables that a program defines, in the order in which it defines them. -/
def definedNames (b : Build t settings) : List String :=
  "empty_piece" :: declaredNames b.sections.setup ++ b.copies.map Piece.qualifiedName ++
    "griddy_round" :: declaredNames b.sections.game

lemma count_definedNames (b : Build t settings) (name : String) :
    b.definedNames.count name =
      b.ownNames.count name + (declaredNames b.statements).count name := by
  simp only [definedNames, ownNames, statements, declaredNames, List.filterMap_append,
    List.count_append, List.count_cons, List.count_nil, List.cons_append]
  omega

/-- One of a program's own variables is defined once unless a statement assigns to its name. -/
lemma count_definedNames_eq_one (h : t.Numbered) {b : Build t settings} {name : String}
    (hname : name ∈ b.ownNames) :
    b.definedNames.count name = 1 ↔ ∀ n ∈ t.statementNodes, t.assignedName? n ≠ some name := by
  rw [count_definedNames, List.count_eq_one_of_mem b.nodup_ownNames hname, Nat.add_eq_left,
    List.count_eq_zero, Tree.mem_declaredNames_iff h h.selfContained_statementNodes b.lowered]
  simp

end Build

namespace Tree

variable {t : Tree} {settings : Settings}

lemma lt_size_of_mem_statementNodes {n : Nat} (hn : n ∈ t.statementNodes) : n < t.size := by
  rcases List.mem_append.mp hn with hn | hn
  · exact lt_size_of_mem_children (mem_setupNodes.mp hn).1
  · obtain ⟨game, -, -, hn⟩ := mem_gameNodes.mp hn
    exact lt_size_of_mem_children hn

/-- A piece literal is always assigned to a new name. -/
lemma declares_of_piece {defaults : PieceDefaults} {n value : Nat} {name : String} {st : Statement}
    (hlowered : (t.lowerStatement defaults n).outcome = .ok st)
    (hname : t.assignedName? n = some name) (hvalue : t.child? n 1 = some value)
    (hkind : t.kind value = .piece) :
    ∃ fields, st = .declare name (.piece fields) ∧
      (t.lowerPiece defaults name value).outcome = .ok fields := by
  obtain ⟨hassign, target, htarget, hident⟩ := assignedName?_eq_some.mp hname
  cases statementCode_of_lowerStatement hlowered with
  | declare _ htarget' hvalue' hident' _ hinitial =>
    rw [htarget] at htarget'
    cases htarget'
    rw [hident] at hident'
    cases hident'
    rw [hvalue] at hvalue'
    cases hvalue'
    cases hinitial with
    | piece _ hfields => exact ⟨_, rfl, hfields⟩
    | integer hkind' =>
      rw [hkind] at hkind'
      simp at hkind'
    | integerOf hother | textOf hother | pieceOf hother =>
      rw [(identName?_eq_some.mp hother).1] at hkind
      cases hkind
    | text hkind' | blank hkind' | board hkind' | cell hkind' =>
      rw [hkind] at hkind'
      cases hkind'
  | change _ _ hvalue' _ _ hpiece =>
    rw [hvalue] at hvalue'
    cases hvalue'
    exact absurd hkind hpiece
  | print hkind' => simp [hkind'] at hassign
  | place hkind' => simp [hkind'] at hassign

/-- Wherever a compiled program assigns a piece literal to a name, it declares a variable for the
piece and a variable for either player's copy. After the settings that follow each of these
declarations the three variables have the same name, limit and flags. The variable of a copy is
defined once in the program exactly if no statement assigns to its name. -/
theorem copies_agree_with_declaration (hfinished : t.Finished) {c : Compilation}
    (hcompile : (t.compile settings).outcome = .ok c) :
    ∃ b : Build t settings, c.program = b.text ∧
      ∀ n ∈ t.statementNodes, ∀ name value, t.assignedName? n = some name →
        t.child? n 1 = some value → t.kind value = .piece →
        ∃ i : Nat, ∃ fields, t.statementNodes[i]? = some n ∧
          b.statements[i]? = some (.declare name (.piece fields)) ∧
          ∀ owner ∈ Owner.players, ∃ copy ∈ b.copies,
            copy.qualifiedName = name ++ owner.suffix ∧
            (∀ member ∈ declaredMembers, ∃ held, lastWrite fields member = some held ∧
              lastWrite (copyFields copy) member = some held) ∧
            (b.definedNames.count (name ++ owner.suffix) = 1 ↔
              ∀ m ∈ t.statementNodes, t.assignedName? m ≠ some (name ++ owner.suffix)) := by
  have h := hfinished.numbered
  obtain ⟨-, b, htext, -⟩ := exists_build_of_compile hfinished.kind_root hcompile
  refine ⟨b, htext, ?_⟩
  intro n hn name value hname hvalue hkind
  obtain ⟨i, hi⟩ := List.getElem?_of_mem hn
  obtain ⟨st, hst, hlowered⟩ := forall₂_getElem? b.lowered hi
  obtain ⟨fields, rfl, hfields⟩ := declares_of_piece hlowered hname hvalue hkind
  obtain ⟨template, hmem, htemplate⟩ :=
    b.exists_template h (lt_size_of_mem_statementNodes hn) hname hvalue hkind
  refine ⟨i, fields, hi, hst, ?_⟩
  intro owner howner
  obtain ⟨copy, hcopy, hcopyOwner, hshared⟩ := b.exists_copy_of_template hmem howner
  have hcopyName : copy.name = name := by
    rw [← copy.shared_name, hshared, template.shared_name, (pieceTemplate_keeps htemplate).2.1]
  have hqualified : copy.qualifiedName = name ++ owner.suffix := by
    rw [Piece.qualifiedName, hcopyName, hcopyOwner]
  refine ⟨copy, hcopy, hqualified, ?_, ?_⟩
  · intro member hmember
    have hcount : member ≠ "count" := by
      rintro rfl
      revert hmember
      decide
    obtain ⟨held, hheld⟩ := exists_lastWrite_copyFields copy hmember
    refine ⟨held, ?_, hheld⟩
    rw [lastWrite_of_lowerPiece hfields htemplate hcount, ← lastWrite_copyFields_shared hcount,
      ← hshared, lastWrite_copyFields_shared hcount, hheld]
  · rw [← hqualified]
    exact Build.count_definedNames_eq_one h (Build.qualifiedName_mem_ownNames hcopy)

/-- A piece with a limit that is given twice, and another one that is declared in a game. -/
def repeatedProperty : List BuildEvent :=
  [.opened .start .none .detached] ++
    pieceEvents "knight" [(4, 5), (6, 7), (8, 9)]
      [.leaf .ident (.text "limit") .detached, .leaf .integer (.integer 2) .detached,
        .leaf .ident (.text "capture") .detached, .leaf .boolean (.boolean true) .detached,
        .leaf .ident (.text "limit") .detached, .leaf .integer (.integer 3) .detached] ++
    [.opened .game .none .detached] ++ pieceEvents "bishop" [] [] ++ [.closed, .closed]

theorem copies_agree_repeatedProperty :
    ∃ (t : Tree) (c : Compilation), t.Finished ∧ (t.compile {}).outcome = .ok c ∧
      ∃ b : Build t {}, c.program = b.text ∧
        ∃ i : Nat, ∃ fields, b.statements[i]? = some (.declare "knight" (.piece fields)) ∧
          ∀ owner ∈ Owner.players, ∃ copy ∈ b.copies,
            copy.qualifiedName = "knight" ++ owner.suffix ∧
            (∀ member ∈ declaredMembers, ∃ held, lastWrite fields member = some held ∧
              lastWrite (copyFields copy) member = some held) ∧
            b.definedNames.count ("knight" ++ owner.suffix) = 1 := by
  obtain ⟨t, hfinished, hcompiled, ⟨hn, hname, hvalue, hkind⟩, hfree⟩ :=
    exists_finished_of_check repeatedProperty (fun t => (t.compile {}).outcome.isOk ∧
      (1 ∈ t.statementNodes ∧ t.assignedName? 1 = some "knight" ∧ t.child? 1 1 = some 3 ∧
        t.kind 3 = .piece) ∧
      ∀ owner ∈ Owner.players, ∀ m ∈ t.statementNodes,
        t.assignedName? m ≠ some ("knight" ++ owner.suffix)) (by decide +kernel)
  obtain ⟨c, hcompile⟩ := exists_of_isOk hcompiled
  obtain ⟨b, htext, hpieces⟩ := copies_agree_with_declaration hfinished hcompile
  obtain ⟨i, fields, -, hst, hcopies⟩ := hpieces 1 hn "knight" 3 hname hvalue hkind
  refine ⟨t, c, hfinished, hcompile, b, htext, i, fields, hst, ?_⟩
  intro owner howner
  obtain ⟨copy, hcopy, hqualified, hmembers, honce⟩ := hcopies owner howner
  exact ⟨copy, hcopy, hqualified, hmembers, honce.mpr (hfree owner howner)⟩

/-- Two pieces, of which one has the name of a copy of the other. -/
def nestedSuffix : List BuildEvent :=
  [.opened .start .none .detached] ++ pieceEvents "a" [] [] ++ pieceEvents "a_p1" [] [] ++ [.closed]

theorem nestedSuffix_defines_twice :
    ∃ (t : Tree) (c : Compilation), t.Finished ∧ (t.compile {}).outcome = .ok c ∧
      ∃ n ∈ t.statementNodes, t.assignedName? n = some "a" ∧ t.valueKind? n = some .piece ∧
        ∀ b : Build t {}, b.definedNames.count ("a" ++ Owner.playerOne.suffix) ≠ 1 := by
  obtain ⟨t, hfinished, hcompiled, ⟨hn, hname, hkind⟩, ⟨hn', hname'⟩, hreserved⟩ :=
    exists_finished_of_check nestedSuffix (fun t => (t.compile {}).outcome.isOk ∧
      (1 ∈ t.statementNodes ∧ t.assignedName? 1 = some "a" ∧ t.valueKind? 1 = some .piece) ∧
      (4 ∈ t.statementNodes ∧ t.assignedName? 4 = some "a_p1") ∧ t.Reserved "a_p1")
      (by decide +kernel)
  obtain ⟨c, hcompile⟩ := exists_of_isOk hcompiled
  have h := hfinished.numbered
  refine ⟨t, c, hfinished, hcompile, 1, hn, hname, hkind, ?_⟩
  intro b honce
  have hown : "a_p1" ∈ b.ownNames := (mem_ownNames h).mpr hreserved
  exact (Build.count_definedNames_eq_one h hown).mp honce 4 hn' hname'

end Tree

end GridGame
