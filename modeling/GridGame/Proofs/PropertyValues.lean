import GridGame.Proofs.Setups

/-!
# Properties of pieces

What a declaration of a piece may say about it is a list of features, and each is written as a
literal of its own kind: `Denotes` says which nodes are literals of which features. A property can
be read exactly if its name is that of a feature and its value denotes one (`setOn_eq_ok_iff`), so
the template of a piece has all the features of the declaration (`pieceTemplate_eq_ok_iff`).
-/

namespace GridGame

/-! ### Lists -/

section Lists

variable {α β γ ε : Type} {R : α → β → Prop} {S : β → γ → Prop}

lemma forall₂_iff_of_forall {R' : α → β → Prop} (h : ∀ x y, R x y ↔ R' x y) {xs : List α}
    {ys : List β} : List.Forall₂ R xs ys ↔ List.Forall₂ R' xs ys :=
  ⟨.imp fun x y => (h x y).mp, .imp fun x y => (h x y).mpr⟩

lemma forall₂_comp {xs : List α} {zs : List γ} :
    (∃ ys, List.Forall₂ R xs ys ∧ List.Forall₂ S ys zs) ↔
      List.Forall₂ (fun x z => ∃ y, R x y ∧ S y z) xs zs := by
  constructor
  · rintro ⟨ys, hxy, hyz⟩
    induction hxy generalizing zs with
    | nil =>
      cases hyz
      exact .nil
    | cons hx _ ih =>
      cases hyz with
      | cons hy hyz => exact .cons ⟨_, hx, hy⟩ (ih hyz)
  · intro h
    induction h with
    | nil => exact ⟨[], .nil, .nil⟩
    | cons hxz _ ih =>
      obtain ⟨y, hx, hz⟩ := hxz
      obtain ⟨ys, hxy, hyz⟩ := ih
      exact ⟨y :: ys, .cons hx hxy, .cons hz hyz⟩

lemma exists_forall₂ {xs : List α} :
    (∃ ys, List.Forall₂ R xs ys) ↔ ∀ x ∈ xs, ∃ y, R x y := by
  constructor
  · rintro ⟨ys, h⟩
    induction h with
    | nil => simp
    | cons hxy _ ih => exact List.forall_mem_cons.mpr ⟨⟨_, hxy⟩, ih⟩
  · intro h
    induction xs with
    | nil => exact ⟨[], .nil⟩
    | cons x xs ih =>
      obtain ⟨⟨y, hy⟩, hrest⟩ := List.forall_mem_cons.mp h
      obtain ⟨ys, hys⟩ := ih hrest
      exact ⟨y :: ys, .cons hy hys⟩

lemma except_map_eq_ok {x : Except ε α} {f : α → β} {b : β} :
    (do return f (← x)) = Except.ok b ↔ ∃ a, x = .ok a ∧ f a = b := by
  rw [except_bind_eq_ok]
  simp only [pure, Except.pure, Except.ok.injEq]

/-- All members of a list are read, or none is. -/
lemma mapM_eq_ok_iff {f : α → Except ε β} {xs : List α} {ys : List β} :
    xs.mapM f = .ok ys ↔ List.Forall₂ (fun x y => f x = .ok y) xs ys := by
  induction xs generalizing ys with
  | nil => simp [pure, Except.pure, eq_comm]
  | cons x xs ih =>
    simp only [List.mapM_cons, except_bind_eq_ok, ih, List.forall₂_cons_left_iff]
    constructor
    · rintro ⟨y, hy, rest, hrest, h⟩
      cases h
      exact ⟨y, rest, hy, hrest, rfl⟩
    · rintro ⟨y, rest, hy, hrest, rfl⟩
      exact ⟨y, hy, rest, hrest, rfl⟩

end Lists

/-! ### Features -/

/-- Something that the declaration of a piece says about it. -/
inductive Feature where
  | label (text : String)
  | limit (count : UInt32)
  | capture (flag : Bool)
  | placeable (flag : Bool)
  | canJump (flag : Bool)
  | starts (squares : List Position)
  | moves (offsets : List Offset)

namespace Feature

/-- The name of the property that gives the feature. -/
def property : Feature → String
  | .label _ => "name"
  | .limit _ => "limit"
  | .capture _ => "capture"
  | .placeable _ => "placeable"
  | .canJump _ => "can_jump"
  | .starts _ => "start"
  | .moves _ => "moves"

def set (piece : Piece) : Feature → Piece
  | .label text => { piece with label := some text }
  | .limit count => { piece with limit := count }
  | .capture flag => { piece with capture := flag }
  | .placeable flag => { piece with placeable := flag }
  | .canJump flag => { piece with canJump := flag }
  | .starts squares => { piece with starts := squares }
  | .moves offsets => { piece with moves := some offsets }

lemma property_ne_empty (f : Feature) : f.property ≠ "" := by
  cases f <;> simp [property]

end Feature

/-! ### Literals of features -/

namespace Tree

variable (t : Tree)

/-- The node is a pair of two integers. -/
def IsPair (n : Nat) (x y : Int64) : Prop :=
  t.kind n = .pair ∧ (t.child? n 0).map t.payload = some (.integer x) ∧
    (t.child? n 1).map t.payload = some (.integer y)

/-- The items of a list, or the one item that stands for a list. -/
def ListsItems (n : Nat) (items : List Nat) : Prop :=
  t.kind n = .list ∧ t.children n = items ∨ t.kind n = .pair ∧ [n] = items

/-- The node is a pair of integers that count from 1. -/
def IsSquare (n : Nat) (square : Position) : Prop :=
  ∃ x y, t.IsPair n x y ∧ x.toInt = square.x.toNat ∧ y.toInt = square.y.toNat ∧
    0 < square.x ∧ 0 < square.y

/-- The node is a literal of a feature. -/
inductive Denotes (n : Nat) : Feature → Prop
  | label {text : String} (hkind : t.kind n = .string) (htext : t.text? n = some text) :
      Denotes n (.label text)
  | limit {v : Int64} {count : UInt32} (hpayload : t.payload n = .integer v)
      (hcount : v.toInt = count.toNat) : Denotes n (.limit count)
  | capture {flag : Bool} (hpayload : t.payload n = .boolean flag) : Denotes n (.capture flag)
  | placeable {flag : Bool} (hpayload : t.payload n = .boolean flag) : Denotes n (.placeable flag)
  | canJump {flag : Bool} (hpayload : t.payload n = .boolean flag) : Denotes n (.canJump flag)
  | starts {items : List Nat} {squares : List Position} (hitems : t.ListsItems n items)
      (hsquares : List.Forall₂ t.IsSquare items squares) : Denotes n (.starts squares)
  | moves {items : List Nat} {offsets : List Offset} (hitems : t.ListsItems n items)
      (hoffsets : List.Forall₂ (fun item (o : Offset) => t.IsPair item o.dx o.dy) items offsets) :
      Denotes n (.moves offsets)

/-- The property with this key and value gives a feature. -/
def Gives (entry : Nat × Nat) (f : Feature) : Prop :=
  t.identName? entry.1 = some f.property ∧ t.Denotes entry.2 f

end Tree

/-! ### Reading properties -/

namespace Property

variable {t : Tree} {p : Property} {item : Nat}

lemma natural?_eq_some {v : Int64} {n : UInt32} : natural? v = some n ↔ v.toInt = n.toNat := by
  have hlt : n.toNat < 4294967296 := n.toNat_lt_size
  unfold natural?
  split_ifs with hrange
  · rw [Option.some.injEq, ← UInt32.toNat_inj]
    simp only [UInt32.toNat_ofNat']
    omega
  · simp only [false_iff]
    omega

lemma text_eq_ok_iff {s : String} :
    p.text t = .ok s ↔ t.kind p.value = .string ∧ t.text? p.value = some s := by
  unfold text
  split_ifs with hkind
  · cases t.text? p.value with
    | none => simp
    | some s' => simp [hkind]
  · simp [hkind]

lemma count_eq_ok_iff {n : UInt32} :
    p.count t = .ok n ↔ ∃ v, t.payload p.value = .integer v ∧ v.toInt = n.toNat := by
  unfold count
  split
  · next v hv =>
    simp only [hv, Payload.integer.injEq, exists_eq_left', ← natural?_eq_some]
    cases natural? v with
    | none => simp
    | some m => simp
  · next hv =>
    simp only [reduceCtorEq, false_iff]
    rintro ⟨v, hpayload, -⟩
    exact hv v hpayload

lemma flag_eq_ok_iff {b : Bool} : p.flag t = .ok b ↔ t.payload p.value = .boolean b := by
  unfold flag
  split
  · next b' hb => simp [hb]
  · next hb => simpa using hb b

lemma coordinate_eq_ok_iff {i : Nat} {v : Int64} :
    p.coordinate t item i = .ok v ↔ (t.child? item i).map t.payload = some (.integer v) := by
  unfold coordinate
  split
  · next v' hv => simp [hv]
  · next hv => simpa using hv v

lemma pair_eq_ok_iff {x y : Int64} : p.pair t item = .ok (x, y) ↔ t.IsPair item x y := by
  unfold pair Tree.IsPair
  split_ifs with hkind
  · simp only [except_bind_eq_ok, coordinate_eq_ok_iff, hkind, true_and]
    constructor
    · rintro ⟨x', hx, y', hy, h⟩
      cases h
      exact ⟨hx, hy⟩
    · rintro ⟨hx, hy⟩
      exact ⟨x, hx, y, hy, rfl⟩
  · simp [hkind]

lemma pairNodes_eq_ok_iff {items : List Nat} :
    p.pairNodes t = .ok items ↔ t.ListsItems p.value items := by
  unfold pairNodes Tree.ListsItems
  split
  · next hkind => simp [hkind]
  · next hkind => simp [hkind]
  · next hlist hpair =>
    simp only [reduceCtorEq, false_iff]
    rintro (⟨hkind, -⟩ | ⟨hkind, -⟩)
    · exact hlist hkind
    · exact hpair hkind

/-- The pairs that are read come with their nodes. -/
lemma pairs_eq_ok_iff {l : List (Nat × Int64 × Int64)} :
    p.pairs t = .ok l ↔ ∃ items, t.ListsItems p.value items ∧
      List.Forall₂ (fun item r => item = r.1 ∧ t.IsPair item r.2.1 r.2.2) items l := by
  simp only [pairs, except_bind_eq_ok, pairNodes_eq_ok_iff, mapM_eq_ok_iff]
  refine exists_congr fun items => and_congr_right fun _ => forall₂_iff_of_forall fun item r => ?_
  rw [← pair_eq_ok_iff (p := p)]
  constructor
  · rintro ⟨⟨x, y⟩, hpair, h⟩
    cases h
    exact ⟨rfl, hpair⟩
  · rintro ⟨rfl, hpair⟩
    exact ⟨r.2, hpair, rfl⟩

/-- What is made of the pairs is made of the items of a list. -/
lemma exists_pairs {β : Type} {S : Nat × Int64 × Int64 → β → Prop} {results : List β} :
    (∃ l, p.pairs t = .ok l ∧ List.Forall₂ S l results) ↔
      ∃ items, t.ListsItems p.value items ∧
        List.Forall₂ (fun item b => ∃ x y, t.IsPair item x y ∧ S (item, x, y) b) items results := by
  have hmember (item : Nat) (b : β) :
      (∃ r : Nat × Int64 × Int64, (item = r.1 ∧ t.IsPair item r.2.1 r.2.2) ∧ S r b) ↔
        ∃ x y, t.IsPair item x y ∧ S (item, x, y) b := by
    constructor
    · rintro ⟨⟨_, x, y⟩, ⟨rfl, hpair⟩, hb⟩
      exact ⟨x, y, hpair, hb⟩
    · rintro ⟨x, y, hpair, hb⟩
      exact ⟨(item, x, y), ⟨rfl, hpair⟩, hb⟩
  simp only [pairs_eq_ok_iff, ← forall₂_iff_of_forall hmember, ← forall₂_comp]
  constructor
  · rintro ⟨l, ⟨items, hitems, hpairs⟩, hresults⟩
    exact ⟨items, hitems, l, hpairs, hresults⟩
  · rintro ⟨items, hitems, l, hpairs, hresults⟩
    exact ⟨l, ⟨items, hitems, hpairs⟩, hresults⟩

lemma position_eq_ok_iff {x y : Int64} {square : Position} :
    p.position t item x y = .ok square ↔
      x.toInt = square.x.toNat ∧ y.toInt = square.y.toNat ∧ 0 < square.x ∧ 0 < square.y := by
  rw [← natural?_eq_some, ← natural?_eq_some]
  unfold position
  split
  · next a b ha hb =>
    rw [ha, hb]
    split_ifs with hpositive
    · constructor
      · rintro ⟨⟩
        exact ⟨rfl, rfl, hpositive⟩
      · rintro ⟨hx, hy, -⟩
        rw [Option.some.inj hx, Option.some.inj hy]
    · constructor
      · rintro ⟨⟩
      · rintro ⟨hx, hy, hpositive'⟩
        rw [← Option.some.inj hx, ← Option.some.inj hy] at hpositive'
        exact absurd hpositive' hpositive
  · next hnone =>
    simp only [reduceCtorEq, false_iff]
    rintro ⟨hx, hy, -⟩
    exact hnone _ _ hx hy

lemma positions_eq_ok_iff {squares : List Position} :
    p.positions t = .ok squares ↔
      ∃ items, t.ListsItems p.value items ∧ List.Forall₂ t.IsSquare items squares := by
  have hread : p.positions t = .ok squares ↔ ∃ l, p.pairs t = .ok l ∧
      List.Forall₂ (fun r square => p.position t r.1 r.2.1 r.2.2 = .ok square) l squares := by
    rw [positions, except_bind_eq_ok]
    exact exists_congr fun l => and_congr_right fun _ => mapM_eq_ok_iff
  rw [hread, exists_pairs]
  simp only [position_eq_ok_iff]
  rfl

lemma offsets_eq_ok_iff {offsets : List Offset} :
    p.offsets t = .ok offsets ↔ ∃ items, t.ListsItems p.value items ∧
      List.Forall₂ (fun item (o : Offset) => t.IsPair item o.dx o.dy) items offsets := by
  have hread : p.offsets t = .ok offsets ↔ ∃ l, p.pairs t = .ok l ∧
      List.Forall₂ (fun r o => Offset.mk r.2.1 r.2.2 = o) l offsets := by
    rw [Property.offsets, except_map_eq_ok]
    refine exists_congr fun l => and_congr_right fun _ => ?_
    rw [← List.forall₂_map_left_iff, List.forall₂_eq_eq_eq]
  rw [hread, exists_pairs]
  refine exists_congr fun items => and_congr_right fun _ => forall₂_iff_of_forall fun item o => ?_
  constructor
  · rintro ⟨x, y, hpair, rfl⟩
    exact hpair
  · intro hpair
    exact ⟨o.dx, o.dy, hpair, rfl⟩

/-- A property can be set exactly if it gives a feature. -/
lemma setOn_eq_ok_iff {piece piece' : Piece} :
    p.setOn t piece = .ok piece' ↔
      ∃ f : Feature, p.name = f.property ∧ t.Denotes p.value f ∧ f.set piece = piece' := by
  constructor
  · intro h
    unfold setOn at h
    split at h
    · next hname =>
      obtain ⟨text, htext, rfl⟩ := except_map_eq_ok.mp h
      obtain ⟨hkind, htext⟩ := text_eq_ok_iff.mp htext
      exact ⟨.label text, hname, .label hkind htext, rfl⟩
    · next hname =>
      obtain ⟨count, hcount, rfl⟩ := except_map_eq_ok.mp h
      obtain ⟨v, hpayload, hcount⟩ := count_eq_ok_iff.mp hcount
      exact ⟨.limit count, hname, .limit hpayload hcount, rfl⟩
    · next hname =>
      obtain ⟨flag, hflag, rfl⟩ := except_map_eq_ok.mp h
      exact ⟨.capture flag, hname, .capture (flag_eq_ok_iff.mp hflag), rfl⟩
    · next hname =>
      obtain ⟨flag, hflag, rfl⟩ := except_map_eq_ok.mp h
      exact ⟨.placeable flag, hname, .placeable (flag_eq_ok_iff.mp hflag), rfl⟩
    · next hname =>
      obtain ⟨flag, hflag, rfl⟩ := except_map_eq_ok.mp h
      exact ⟨.canJump flag, hname, .canJump (flag_eq_ok_iff.mp hflag), rfl⟩
    · next hname =>
      obtain ⟨squares, hsquares, rfl⟩ := except_map_eq_ok.mp h
      obtain ⟨items, hitems, hsquares⟩ := positions_eq_ok_iff.mp hsquares
      exact ⟨.starts squares, hname, .starts hitems hsquares, rfl⟩
    · next hname =>
      obtain ⟨offsets, hoffsets, rfl⟩ := except_map_eq_ok.mp h
      obtain ⟨items, hitems, hoffsets⟩ := offsets_eq_ok_iff.mp hoffsets
      exact ⟨.moves offsets, hname, .moves hitems hoffsets, rfl⟩
    · cases h
  · rintro ⟨f, hname, hdenotes, rfl⟩
    unfold setOn
    rw [hname]
    cases hdenotes with
    | label hkind htext => exact except_map_eq_ok.mpr ⟨_, text_eq_ok_iff.mpr ⟨hkind, htext⟩, rfl⟩
    | limit hpayload hcount =>
      exact except_map_eq_ok.mpr ⟨_, count_eq_ok_iff.mpr ⟨_, hpayload, hcount⟩, rfl⟩
    | capture hpayload => exact except_map_eq_ok.mpr ⟨_, flag_eq_ok_iff.mpr hpayload, rfl⟩
    | placeable hpayload => exact except_map_eq_ok.mpr ⟨_, flag_eq_ok_iff.mpr hpayload, rfl⟩
    | canJump hpayload => exact except_map_eq_ok.mpr ⟨_, flag_eq_ok_iff.mpr hpayload, rfl⟩
    | starts hitems hsquares =>
      exact except_map_eq_ok.mpr ⟨_, positions_eq_ok_iff.mpr ⟨_, hitems, hsquares⟩, rfl⟩
    | moves hitems hoffsets =>
      exact except_map_eq_ok.mpr ⟨_, offsets_eq_ok_iff.mpr ⟨_, hitems, hoffsets⟩, rfl⟩

end Property

namespace Tree

variable {t : Tree}

lemma getD_eq_property {name : Option String} {f : Feature} :
    name.getD "" = f.property ↔ name = some f.property := by
  cases name with
  | none => simpa using f.property_ne_empty.symm
  | some name => simp

/-- A piece has a template exactly if all its properties give features, and the template has these
features. -/
lemma pieceTemplate_eq_ok_iff {defaults : PieceDefaults} {name : String} {table : List (Nat × Nat)}
    {template : Piece} :
    t.pieceTemplate defaults name table = .ok template ↔
      ∃ features, List.Forall₂ t.Gives table features ∧
        features.foldl Feature.set (.template name defaults) = template := by
  unfold pieceTemplate
  generalize Piece.template name defaults = piece
  induction table generalizing piece with
  | nil => simp [pure, Except.pure]
  | cons entry table ih =>
    simp only [List.foldlM_cons, except_bind_eq_ok, Property.setOn_eq_ok_iff, getD_eq_property, ih,
      List.forall₂_cons_left_iff]
    constructor
    · rintro ⟨_, ⟨f, hname, hdenotes, rfl⟩, features, hfeatures, rfl⟩
      exact ⟨f :: features, ⟨f, features, ⟨hname, hdenotes⟩, hfeatures, rfl⟩, rfl⟩
    · rintro ⟨_, ⟨f, features, ⟨hname, hdenotes⟩, hfeatures, rfl⟩, rfl⟩
      exact ⟨_, ⟨f, hname, hdenotes, rfl⟩, features, hfeatures, rfl⟩

/-- The features of a piece are those of its properties, one by one. -/
lemma exists_pieceTemplate {defaults : PieceDefaults} {name : String} {table : List (Nat × Nat)} :
    (∃ template, t.pieceTemplate defaults name table = .ok template) ↔
      ∀ entry ∈ table, ∃ f, t.Gives entry f := by
  rw [← exists_forall₂]
  simp only [pieceTemplate_eq_ok_iff]
  constructor
  · rintro ⟨_, features, hfeatures, -⟩
    exact ⟨features, hfeatures⟩
  · rintro ⟨features, hfeatures⟩
    exact ⟨_, features, hfeatures, rfl⟩

end Tree

end GridGame
