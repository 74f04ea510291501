import Mathlib

/-!
# Red-black trees with a path to the root

An intrusive red-black tree is walked through parent pointers. Here the
nodes are an inductive tree and the parents of a node are a path, the list
of frames from the node up to the root, so that an algorithm which climbs from a
node is a recursion over the path. An access through a null pointer is `none`.

The insertion and the removal keep the order of the values and the balance, and
on a balanced tree they never meet a null pointer: `insertAt_spec` and
`removeNode_spec`.
-/
namespace Hermes

open List Option

inductive Dir
  | left
  | right
deriving DecidableEq, Repr

def Dir.other : Dir → Dir
  | left => right
  | right => left

inductive RbTree (α : Type) where
  | nil
  | node (red : Bool) (l : RbTree α) (a : α) (r : RbTree α)
deriving DecidableEq, Repr

namespace RbTree

variable {α : Type}

def isRed : RbTree α → Bool
  | nil => false
  | node red _ _ _ => red

def setRed (b : Bool) : RbTree α → RbTree α
  | nil => nil
  | node _ l a r => node b l a r

def child (d : Dir) : RbTree α → RbTree α
  | nil => nil
  | node _ l _ r => match d with
    | .left => l
    | .right => r

/-- The node with `t` as its child on side `d`. -/
def mk (d : Dir) (red : Bool) (a : α) (t sib : RbTree α) : RbTree α :=
  match d with
  | .left => node red t a sib
  | .right => node red sib a t

def inorder : RbTree α → List α
  | nil => []
  | node _ l a r => inorder l ++ a :: inorder r

/-- The child on side `d.other` takes the place of its parent. -/
def rotate (d : Dir) (t : RbTree α) : Option (RbTree α) :=
  match t with
  | nil => none
  | node red _ a _ => match child d.other t with
    | nil => none
    | node redP lP aP rP =>
      let pivot := node redP lP aP rP
      some (mk d redP aP (mk d red a (child d t) (child d pivot)) (child d.other pivot))

/-! ## Paths -/

/-- One step towards the root: the parent, the side on which the path left it
and its other child. -/
structure Frame (α : Type) where
  dir : Dir
  red : Bool
  val : α
  sib : RbTree α
deriving DecidableEq, Repr

def plug : RbTree α → List (Frame α) → RbTree α
  | t, [] => t
  | t, f :: p => plug (mk f.dir f.red f.val t f.sib) p

/-- The values before the hole of a path. -/
def before : List (Frame α) → List α
  | [] => []
  | f :: p => before p ++ match f.dir with
    | .left => []
    | .right => inorder f.sib ++ [f.val]

/-- The values behind the hole of a path. -/
def after : List (Frame α) → List α
  | [] => []
  | f :: p => (match f.dir with
    | .left => f.val :: inorder f.sib
    | .right => []) ++ after p

/-! ## Insertion -/

/-- The new node `t` is red: while its parent is red too, recolour or rotate. -/
def insertFixup : RbTree α → List (Frame α) → Option (RbTree α)
  | t, [] => some (setRed false t)
  | t, [p] => if p.red then none else some (setRed false (plug t [p]))
  | t, p :: g :: rest =>
    if !p.red then some (setRed false (plug t (p :: g :: rest)))
    else
      let parent := mk p.dir p.red p.val t p.sib
      if isRed g.sib then
        insertFixup (mk g.dir true g.val (setRed false parent) (setRed false g.sib)) rest
      else do
        let parent ← if p.dir = g.dir then some parent else rotate g.dir parent
        let top ← rotate g.dir.other (mk g.dir true g.val (setRed false parent) g.sib)
        some (setRed false (plug top rest))

/-- A new node in the hole of the path. -/
def insertAt (a : α) (p : List (Frame α)) : Option (RbTree α) := insertFixup (node true nil a nil) p

/-- The path to the leaf that a search for an insertion point ends in. -/
def descend (goRight : α → Bool) : RbTree α → List (Frame α) → List (Frame α)
  | nil, p => p
  | node red l a r, p =>
    if goRight a then descend goRight r (⟨.right, red, a, l⟩ :: p)
    else descend goRight l (⟨.left, red, a, r⟩ :: p)

/-! ## Removal -/

/-- What one turn of the removal's loop leads to. -/
inductive Turn (α : Type) where
  /-- continue one level up, with this subtree -/
  | up (t : RbTree α)
  /-- finished, with this subtree in the place of the parent -/
  | done (t : RbTree α)

/-- One turn for a node `t` on side `d` that lacks one black node, with a black
sibling `s`. -/
def removeTurn (d : Dir) (red : Bool) (a : α) (t s : RbTree α) : Option (Turn α) :=
  match s with
  | nil => none
  | node c l b r =>
    let s := node c l b r
    if !isRed (child .left s) && !isRed (child .right s) then
      some (.up (mk d red a t (setRed true s)))
    else do
      let s ← if isRed (child d.other s) then some s
        else rotate d.other (mk d true b (setRed false (child d s)) (child d.other s))
      match s with
      | nil => none
      | node c l b r =>
        let s := node c l b r
        match child d.other s with
        | nil => none
        | node _ l' b' r' =>
          let top ← rotate d (mk d false a t (mk d red b (child d s) (node false l' b' r')))
          some (.done top)

/-- `t` lacks one black node: repair that on the way up. -/
def removeFixup : RbTree α → List (Frame α) → Option (RbTree α)
  | t, [] => some (setRed false t)
  | t, f :: rest =>
    if isRed t then some (plug (setRed false t) (f :: rest))
    else match f.sib with
      | nil => none
      | node true l b r =>
        -- the red sibling goes above the parent, which gets a black sibling
        let s := node false l b r
        let above : Frame α := ⟨f.dir, false, b, child f.dir.other s⟩
        match removeTurn f.dir true f.val t (child f.dir s) with
        | none => none
        -- the parent is red now, so the loop ends with it
        | some (.up t') => some (plug (setRed false t') (above :: rest))
        | some (.done t') => some (setRed false (plug t' (above :: rest)))
      | node false l b r =>
        match removeTurn f.dir f.red f.val t (node false l b r) with
        | none => none
        | some (.up t') => removeFixup t' rest
        | some (.done t') => some (setRed false (plug t' rest))

/-- The leftmost node below a node: its path, colour, value and right child. -/
def leftmost : RbTree α → List (Frame α) → Option (List (Frame α) × Bool × α × RbTree α)
  | nil, _ => none
  | node red nil a r, p => some (p, red, a, r)
  | node red l a r, p => leftmost l (⟨.left, red, a, r⟩ :: p)

/-- Remove the node with the given colour and children at the end of a path. -/
def removeAt (p : List (Frame α)) (red : Bool) (l r : RbTree α) : Option (RbTree α) :=
  match l, r with
  | node lc ll la lr, node rc rl ra rr =>
    -- the next node takes the place and the colour of the removed one
    match leftmost (node rc rl ra rr) [] with
    | none => none
    | some (q, redN, a, c) =>
      let p := q ++ ⟨.right, red, a, node lc ll la lr⟩ :: p
      if redN then some (plug c p) else removeFixup c p
  | nil, c => if red then some (plug c p) else removeFixup c p
  | c, nil => if red then some (plug c p) else removeFixup c p

variable [DecidableEq α]

/-- The path to the node of a value, with the node's colour and children. -/
def locate (a : α) : RbTree α → List (Frame α) → Option (List (Frame α) × Bool × RbTree α × RbTree α)
  | nil, _ => none
  | node red l b r, p =>
    if b = a then some (p, red, l, r)
    else match locate a l (⟨.left, red, b, r⟩ :: p) with
      | some z => some z
      | none => locate a r (⟨.right, red, b, l⟩ :: p)

/-- The removal of a node that is in the tree. -/
def removeNode (a : α) (t : RbTree α) : Option (RbTree α) :=
  match locate a t [] with
  | none => none
  | some (p, red, l, r) => removeAt p red l r

/-- The parent that a climb from a right child ends in. -/
def climb : List (Frame α) → Option α
  | [] => none
  | f :: p => match f.dir with
    | .left => some f.val
    | .right => climb p

/-- The node behind that of `a`. -/
def nextNode (a : α) (t : RbTree α) : Option α :=
  match locate a t [] with
  | none => none
  | some (p, _, _, r) => match leftmost r [] with
    | some (_, _, b, _) => some b
    | none => climb p

/-! ## Order -/

variable (d : Dir) {t s : RbTree α} {a : α}

section Order

omit [DecidableEq α]

@[simp] lemma inorder_setRed (b : Bool) (t : RbTree α) : inorder (setRed b t) = inorder t := by
  cases t <;> rfl

@[simp] lemma isRed_mk (c : Bool) (a : α) (t s : RbTree α) : isRed (mk d c a t s) = c := by
  cases d <;> rfl

@[simp] lemma setRed_mk (b c : Bool) (a : α) (t s : RbTree α) : setRed b (mk d c a t s) = mk d b a t s := by
  cases d <;> rfl

@[simp] lemma setRed_node (b c : Bool) (a : α) (l r : RbTree α) : setRed b (node c l a r) = node b l a r := rfl

@[simp] lemma isRed_node (c : Bool) (a : α) (l r : RbTree α) : isRed (node c l a r) = c := rfl

@[simp] lemma child_mk (c : Bool) (a : α) (t s : RbTree α) : child d (mk d c a t s) = t := by
  cases d <;> rfl

@[simp] lemma child_other_mk (c : Bool) (a : α) (t s : RbTree α) : child d.other (mk d c a t s) = s := by
  cases d <;> rfl

lemma node_eq_mk (c : Bool) (l : RbTree α) (a : α) (r : RbTree α) :
    node c l a r = mk d c a (child d (node c l a r)) (child d.other (node c l a r)) := by
  cases d <;> rfl

/-- Rotating towards the side of the first child. -/
lemma rotate_mk (c c' : Bool) (a b : α) (x y z : RbTree α) :
    rotate d (mk d c a x (mk d c' b y z)) = some (mk d c' b (mk d c a x y) z) := by
  cases d <;> rfl

/-- Rotating away from it. -/
lemma rotate_other_mk (c c' : Bool) (a b : α) (x y z : RbTree α) :
    rotate d.other (mk d c a (mk d c' b x y) z) = some (mk d c' b x (mk d c a y z)) := by
  cases d <;> rfl

lemma inorder_mk (c : Bool) (a : α) (t s : RbTree α) :
    inorder (mk d c a t s) = before [⟨d, c, a, s⟩] ++ inorder t ++ after [⟨d, c, a, s⟩] := by
  cases d <;> simp [mk, inorder, before, after]

lemma inorder_plug (t : RbTree α) (p : List (Frame α)) : inorder (plug t p) = before p ++ inorder t ++ after p := by
  induction p generalizing t with
  | nil => simp [plug, before, after]
  | cons f p ih =>
    rw [plug, ih, inorder_mk]
    simp [before, after]

/-- The order does not depend on the colours, and a rotation keeps it. -/
lemma inorder_assoc (c₁ c₂ c₃ c₄ : Bool) (a b : α) (x y z : RbTree α) :
    inorder (mk d c₁ b (mk d c₂ a x y) z) = inorder (mk d c₃ a x (mk d c₄ b y z)) := by
  cases d <;> simp [mk, inorder]

lemma mk_other (c : Bool) (a : α) (t s : RbTree α) : mk d.other c a t s = mk d c a s t := by
  cases d <;> rfl

lemma inorder_mk_congr (c c' : Bool) (a : α) {t' s' : RbTree α} (ht : inorder t = inorder t')
    (hs : inorder s = inorder s') : inorder (mk d c a t s) = inorder (mk d c' a t' s') := by
  cases d <;> simp [mk, inorder, ht, hs]

lemma inorder_up (t : RbTree α) (f : Frame α) (p : List (Frame α)) : before (f :: p) ++ inorder t ++ after (f :: p) =
      before p ++ inorder (mk f.dir f.red f.val t f.sib) ++ after p := by
  rw [← inorder_plug, plug, inorder_plug]

end Order

/-! ## Balance -/

section Balance

omit [DecidableEq α]

/-- No red node has a red child, and every way down has `n` black nodes. -/
def Rb : RbTree α → Nat → Prop
  | nil, n => n = 0
  | node true l _ r, n => isRed l = false ∧ isRed r = false ∧ Rb l n ∧ Rb r n
  | node false l _ r, n => ∃ m, n = m + 1 ∧ Rb l m ∧ Rb r m

/-- What the root of a tree looks like. -/
def Balanced (t : RbTree α) : Prop := isRed t = false ∧ ∃ n, Rb t n

/-- A path with a hole for a tree with `n` black nodes on every way down. -/
def Ctx : List (Frame α) → Nat → Prop
  | [], _ => True
  | f :: p, n => Rb f.sib n ∧ (f.red = true → isRed f.sib = false ∧ ∃ g q, p = g :: q ∧ g.red = false) ∧
    Ctx p (if f.red then n else n + 1)

def headRed : List (Frame α) → Bool
  | [] => false
  | f :: _ => f.red

/-- The tree may stand in the hole of the path. -/
def Fits (t : RbTree α) (p : List (Frame α)) : Prop :=
  (∃ n, Rb t n ∧ Ctx p n) ∧ (headRed p = true → isRed t = false) ∧ (isRed t = true → p ≠ [])

lemma rb_mk_red (a : α) (t s : RbTree α) (n : Nat) :
    Rb (mk d true a t s) n ↔ isRed t = false ∧ isRed s = false ∧ Rb t n ∧ Rb s n := by
  cases d
  · simp only [mk, Rb]
  simp only [mk, Rb]
  tauto

lemma rb_mk_black (a : α) (t s : RbTree α) (n : Nat) : Rb (mk d false a t s) (n + 1) ↔ Rb t n ∧ Rb s n := by
  cases d
  · simp [mk, Rb]
  simp only [mk, Rb, Nat.add_right_cancel_iff, exists_eq_left']
  exact And.comm

variable {n : Nat}

lemma Rb.setRed_false (h : Rb t n) : Balanced (setRed false t) := by
  match t with
  | nil => exact ⟨rfl, n, h⟩
  | node false _ _ _ => exact ⟨rfl, n, h⟩
  | node true l a r => exact ⟨rfl, n + 1, n, rfl, h.2.2.1, h.2.2.2⟩

/-- The children of a red node, blackened. -/
lemma Rb.black_of_red (h : Rb t n) (hr : isRed t = true) : Rb (setRed false t) (n + 1) := by
  match t with
  | node true l a r => exact ⟨n, rfl, h.2.2.1, h.2.2.2⟩

lemma fits_nil_iff : Fits t [] ↔ Balanced t := by
  constructor
  · intro ⟨⟨n, h, _⟩, _, hr⟩
    exact ⟨by simpa using mt hr (by simp), n, h⟩
  intro ⟨hr, n, h⟩
  exact ⟨⟨n, h, trivial⟩, by simp [headRed], by simp [hr]⟩

variable {p : List (Frame α)}

/-- Down one step. -/
lemma Fits.down {d : Dir} {c : Bool} (h : Fits (mk d c a t s) p) : Fits t (⟨d, c, a, s⟩ :: p) := by
  obtain ⟨⟨n, hrb, hctx⟩, hhead, hp⟩ := h
  rw [isRed_mk] at hhead hp
  cases c with
  | true =>
    rw [rb_mk_red] at hrb
    obtain ⟨ht, hs, hrt, hrs⟩ := hrb
    refine ⟨⟨n, hrt, hrs, fun _ => ⟨hs, ?_⟩, hctx⟩, fun _ => ht, by simp⟩
    cases p with
    | nil => exact absurd rfl (hp rfl)
    | cons g q => exact ⟨g, q, rfl, by simpa [headRed] using mt hhead (by simp)⟩
  | false =>
    have hn : ∃ m, n = m + 1 := by
      cases d <;> exact hrb.imp fun _ h => h.1
    obtain ⟨m, rfl⟩ := hn
    rw [rb_mk_black] at hrb
    exact ⟨⟨m, hrb.1, hrb.2, by simp, hctx⟩, by simp [headRed], by simp⟩

variable {f : Frame α} {y l r : RbTree α} {red : Bool}

/-- Up one step. -/
lemma Ctx.up (h : Ctx (f :: p) n) (ht : Rb t n) (hr : f.red = true → isRed t = false) :
    Rb (mk f.dir f.red f.val t f.sib) (if f.red then n else n + 1) ∧
      (headRed p = true → f.red = false) ∧ (f.red = true → p ≠ []) := by
  obtain ⟨hs, hred, -⟩ := h
  cases hc : f.red with
  | true =>
    obtain ⟨hsr, g, q, rfl, hg⟩ := hred hc
    refine ⟨?_, by simp [headRed, hg], by simp⟩
    exact (rb_mk_red ..).2 ⟨hr hc, hsr, ht, hs⟩
  | false => exact ⟨(rb_mk_black ..).2 ⟨ht, hs⟩, by simp, by simp⟩

lemma Fits.plug (h : Fits t p) : Balanced (plug t p) := by
  induction p generalizing t with
  | nil => exact fits_nil_iff.1 h
  | cons f p ih =>
    obtain ⟨⟨n, ht, hctx⟩, hr, -⟩ := h
    obtain ⟨hup, hhead, hp⟩ := hctx.up ht hr
    exact ih ⟨⟨_, hup, hctx.2.2⟩, by simpa using hhead, by simpa using hp⟩

/-- A path is closed by a tree whose root may be red where the path's may not. -/
lemma Ctx.plug_black (h : Ctx p n) (ht : Rb t n) (hr : headRed p = true → isRed t = false) :
    Balanced (setRed false (RbTree.plug t p)) := by
  cases p with
  | nil => exact ht.setRed_false
  | cons f p =>
    obtain ⟨-, m, hm⟩ := Fits.plug ⟨⟨n, ht, h⟩, hr, by simp⟩
    exact hm.setRed_false

/-- The two rotations at the end of an insertion: `t` and its parent are red,
the grandparent and the uncle are not. -/
lemma insertFixup_rotate {g : Frame α} (rest : List (Frame α)) (hf : f.red = true) (hu : isRed g.sib = false)
    (ht : Rb t n) (hred : isRed t = true) (hfs : Rb f.sib n) (hfr : isRed f.sib = false) (hgs : Rb g.sib n) : ∃ top,
    insertFixup t (f :: g :: rest) = some (setRed false (plug top rest)) ∧ Rb top (n + 1) ∧ isRed top = false ∧
    inorder top = inorder (mk g.dir g.red g.val (mk f.dir f.red f.val t f.sib) g.sib) := by
  rw [insertFixup, if_neg (by simp [hf]), if_neg (by simp [hu])]
  by_cases hd : f.dir = g.dir
  · refine ⟨mk g.dir false f.val t (mk g.dir true g.val f.sib g.sib), ?_, ?_, isRed_mk .., ?_⟩
    · rw [if_pos hd, hd]
      simp only [setRed_mk, bind_eq_bind, bind_some, rotate_other_mk]
    · rw [rb_mk_black, rb_mk_red]
      exact ⟨ht, hfr, hu, hfs, hgs⟩
    · rw [← inorder_assoc g.dir g.red f.red, hd]
  -- the node first goes above its parent
  have hd' : f.dir = g.dir.other := by
    revert hd
    cases f.dir <;> cases g.dir <;> decide
  match t, ht, hred with
  | node true l v r, ht, _ =>
    rw [node_eq_mk g.dir] at ht ⊢
    generalize child g.dir (node true l v r) = x at *
    generalize child g.dir.other (node true l v r) = y at *
    rw [rb_mk_red] at ht
    obtain ⟨hxr, hyr, hx, hy⟩ := ht
    refine ⟨mk g.dir false v (mk g.dir true f.val f.sib x) (mk g.dir true g.val y g.sib), ?_, ?_, isRed_mk .., ?_⟩
    · rw [if_neg hd, hd', mk_other, hf, rotate_mk]
      simp only [setRed_mk, bind_eq_bind, bind_some, rotate_other_mk]
    · rw [rb_mk_black, rb_mk_red, rb_mk_red]
      exact ⟨⟨hfr, hxr, hfs, hx⟩, hyr, hu, hy, hgs⟩
    · rw [hd', mk_other, ← inorder_assoc g.dir g.red false]
      exact inorder_mk_congr _ _ _ _ (inorder_assoc ..) rfl

lemma insertFixup_spec (p : List (Frame α)) (t : RbTree α) (n : Nat) (hctx : Ctx p n)
    (ht : Rb t n) (hred : isRed t = true) :
    ∃ t', insertFixup t p = some t' ∧ inorder t' = before p ++ inorder t ++ after p ∧ Balanced t' := by
  induction t, p using insertFixup.induct generalizing n with
  | case1 t => exact ⟨_, rfl, by simp [before, after], ht.setRed_false⟩
  | case2 t f hf =>
    obtain ⟨-, g, q, hq, -⟩ := hctx.2.1 hf
    cases hq
  | case3 t f hf =>
    refine ⟨_, by rw [insertFixup, if_neg hf], ?_, hctx.plug_black ht ?_⟩
    · rw [inorder_setRed, inorder_plug]
    · simpa [headRed] using fun h => absurd h hf
  | case4 t f g rest hf =>
    refine ⟨_, by rw [insertFixup, if_pos hf], ?_, hctx.plug_black ht ?_⟩
    · rw [inorder_setRed, inorder_plug]
    intro h
    simp only [headRed] at h
    simp [h] at hf
  | case5 t f g rest hf parent hu ih =>
    -- the red moves up two levels
    have hfr : f.red = true := by simpa using hf
    obtain ⟨hfs, hblack, hctx'⟩ := hctx
    obtain ⟨-, g', q, hq, hg⟩ := hblack hfr
    cases hq
    simp only [hfr] at hctx'
    obtain ⟨hgs, -, hrest⟩ := hctx'
    simp only [hg] at hrest
    have hnew : Rb (mk g.dir true g.val (setRed false parent) (setRed false g.sib)) (n + 1) := by
      rw [rb_mk_red]
      refine ⟨by simp [parent], ?_, ?_, hgs.black_of_red hu⟩
      · exact (hgs.setRed_false).1
      simp only [parent, setRed_mk]
      exact (rb_mk_black ..).2 ⟨ht, hfs⟩
    obtain ⟨t', he, ho, hb⟩ := ih (n + 1) hrest hnew (isRed_mk ..)
    refine ⟨t', ?_, ?_, hb⟩
    · rw [insertFixup, if_neg hf, if_pos hu]
      exact he
    rw [ho, inorder_up, inorder_up]
    congr 2
    exact inorder_mk_congr _ _ _ _ (inorder_setRed ..) (inorder_setRed ..)
  | case6 t f g rest hf hu _ | case7 t f g rest hf hu _ =>
    have hfr : f.red = true := by simpa using hf
    obtain ⟨hfs, hblack, hctx'⟩ := hctx
    obtain ⟨hfb, g', q, hq, hg⟩ := hblack hfr
    cases hq
    simp only [hfr] at hctx'
    obtain ⟨hgs, -, hrest⟩ := hctx'
    simp only [hg] at hrest
    obtain ⟨top, he, hrb, hblk, ho⟩ := insertFixup_rotate rest hfr (by simpa using hu) ht hred hfs hfb hgs
    refine ⟨_, he, ?_, hrest.plug_black hrb fun _ => hblk⟩
    rw [inorder_setRed, inorder_plug, inorder_up, inorder_up, ho]

lemma removeTurn_up (red c : Bool) (a b : α) (t : RbTree α) {x : RbTree α} (hx : isRed x = false)
    (hy : isRed y = false) : removeTurn d red a t (mk d c b x y) = some (.up (mk d red a t (mk d true b x y))) := by
  cases d <;> simp [removeTurn, mk, child, hx, hy]

lemma removeTurn_far (red c : Bool) (a b : α) (t x l' r' : RbTree α) (b' : α) :
    removeTurn d red a t (mk d c b x (node true l' b' r')) =
      some (.done (mk d red b (mk d false a t x) (node false l' b' r'))) := by
  cases d <;> simp [removeTurn, mk, child, Dir.other, rotate]

lemma removeTurn_near (red c : Bool) (a b v : α) (t x₁ x₂ : RbTree α) (hy : isRed y = false) :
    removeTurn d red a t (mk d c b (mk d true v x₁ x₂) y) =
      some (.done (mk d red v (mk d false a t x₁) (mk d false b x₂ y))) := by
  cases d <;> simp [removeTurn, mk, child, Dir.other, rotate, hy]

/-- A black sibling with a red child closes the gap; one without moves it up. -/
lemma removeTurn_spec (red : Bool) (a : α) (ht : Rb t n) (hs : Rb s (n + 1)) (hsb : isRed s = false) :
    (removeTurn d red a t s = some (.up (mk d red a t (setRed true s))) ∧ Rb (setRed true s) n) ∨
    ∃ top, removeTurn d red a t s = some (.done top) ∧ Rb top (if red then n + 1 else n + 2) ∧
      isRed top = red ∧ inorder top = inorder (mk d red a t s) := by
  match s, hs, hsb with
  | nil, hs, _ => exact absurd hs (Nat.succ_ne_zero n)
  | node false l b r, hs, _ =>
    rw [node_eq_mk d] at hs ⊢
    generalize child d (node false l b r) = x at *
    generalize child d.other (node false l b r) = y at *
    obtain ⟨hx, hy⟩ := (rb_mk_black ..).1 hs
    -- the new top has two black children of the same height
    have htop : ∀ {v : α} {l r : RbTree α}, Rb l (n + 1) → Rb r (n + 1) → isRed l = false →
        isRed r = false → Rb (mk d red v l r) (if red then n + 1 else n + 2) := by
      intro v l r hl hr hlb hrb
      cases red with
      | true => exact (rb_mk_red ..).2 ⟨hlb, hrb, hl, hr⟩
      | false => exact (rb_mk_black ..).2 ⟨hl, hr⟩
    cases hyr : isRed y with
    | true =>
      match y, hy, hyr with
      | node true l' b' r', hy, _ =>
        refine .inr ⟨_, removeTurn_far .., ?_, isRed_mk .., ?_⟩
        · exact htop ((rb_mk_black ..).2 ⟨ht, hx⟩) (hy.black_of_red rfl) (isRed_mk ..) rfl
        rw [inorder_assoc d red false red false]
        exact inorder_mk_congr _ _ _ _ rfl (inorder_mk_congr _ _ _ _ rfl rfl)
    | false =>
      cases hxr : isRed x with
      | false =>
        rw [setRed_mk]
        exact .inl ⟨removeTurn_up d red false a b t hxr hyr, (rb_mk_red ..).2 ⟨hxr, hyr, hx, hy⟩⟩
      | true =>
        match x, hx, hxr with
        | node true l' v r', hx, _ =>
          rw [node_eq_mk d] at hx ⊢
          obtain ⟨-, -, hx₁, hx₂⟩ := (rb_mk_red ..).1 hx
          refine .inr ⟨_, removeTurn_near d red false a b v t _ _ hyr, ?_, isRed_mk .., ?_⟩
          · exact htop ((rb_mk_black ..).2 ⟨ht, hx₁⟩) ((rb_mk_black ..).2 ⟨hx₂, hy⟩) (isRed_mk ..) (isRed_mk ..)
          rw [inorder_assoc d red false red false]
          exact inorder_mk_congr _ _ _ _ rfl (inorder_assoc d false true false false ..).symm

/-- The tree that a removal climbs with: one black node short, or red. -/
def Short (t : RbTree α) (n : Nat) : Prop := (isRed t = false ∧ Rb t n) ∨ (isRed t = true ∧ Rb (setRed false t) (n + 1))

lemma removeFixup_spec (p : List (Frame α)) (t : RbTree α) (n : Nat) (hctx : Ctx p (n + 1)) (ht : Short t n) :
    ∃ t', removeFixup t p = some t' ∧ inorder t' = before p ++ inorder t ++ after p ∧ Balanced t' := by
  induction p generalizing t n with
  | nil =>
    refine ⟨_, rfl, by simp [before, after], ?_⟩
    rcases ht with ⟨-, h⟩ | ⟨-, h⟩
    · exact h.setRed_false
    have := h.setRed_false
    cases t <;> exact this
  | cons f rest ih =>
    rcases ht with ⟨hb, ht⟩ | ⟨hr, ht⟩
    · obtain ⟨hs, hblack, hrest⟩ := hctx
      rw [removeFixup, if_neg (by simp [hb])]
      match hsib : f.sib, hs with
      | nil, hs => exact absurd hs (Nat.succ_ne_zero n)
      | node true l b r, hs =>
        -- the parent is black; below the sibling it becomes red
        have hfb : f.red = false := by
          by_contra h
          have := (hblack (by simpa using h)).1
          simp [hsib] at this
        simp only [hfb] at hrest
        rw [inorder_up, hsib]
        have hchild : ∀ d, child d (node false l b r) = child d (node true l b r) := fun d => by
          cases d <;> rfl
        simp only [hchild]
        rw [node_eq_mk f.dir] at hs ⊢
        generalize child f.dir (node true l b r) = x at *
        generalize child f.dir.other (node true l b r) = y at *
        simp only [child_mk, child_other_mk]
        obtain ⟨hxb, hyb, hx, hy⟩ := (rb_mk_red ..).1 hs
        have habove : Ctx (⟨f.dir, false, b, y⟩ :: rest) (n + 1) := ⟨hy, by simp, hrest⟩
        have hord : ∀ c t', inorder t' = inorder (mk f.dir c f.val t x) →
            inorder (plug t' (⟨f.dir, false, b, y⟩ :: rest)) =
              before rest ++ inorder (mk f.dir f.red f.val t (mk f.dir true b x y)) ++ after rest := by
          intro c t' ho
          rw [inorder_plug, inorder_up, ← inorder_assoc f.dir false c]
          congr 2
          exact inorder_mk_congr _ _ _ _ ho rfl
        rcases removeTurn_spec f.dir true f.val ht hx hxb with ⟨he, hs'⟩ | ⟨top, he, hrb, -, ho⟩
        · refine ⟨plug (setRed false (mk f.dir true f.val t (setRed true x)))
            (⟨f.dir, false, b, y⟩ :: rest), by simp only [he], ?_, ?_⟩
          · refine hord true _ ?_
            rw [inorder_setRed]
            exact inorder_mk_congr _ _ _ _ rfl (inorder_setRed ..)
          · rw [setRed_mk]
            exact Fits.plug ⟨⟨n + 1, (rb_mk_black ..).2 ⟨ht, hs'⟩, habove⟩, by simp [headRed], by simp⟩
        · refine ⟨setRed false (plug top (⟨f.dir, false, b, y⟩ :: rest)), by simp only [he], ?_, ?_⟩
          · rw [inorder_setRed]
            exact hord true top ho
          · exact habove.plug_black hrb (by simp [headRed])
      | node false l b r, hs =>
        rw [inorder_up, hsib]
        rcases removeTurn_spec f.dir f.red f.val ht hs rfl with ⟨he, hs'⟩ | ⟨top, he, hrb, htr, ho⟩
        · simp only [he]
          have hup : ∀ c, inorder (mk f.dir c f.val t (setRed true (node false l b r))) =
              inorder (mk f.dir c f.val t (node false l b r)) := fun c =>
            inorder_mk_congr _ _ _ _ rfl (inorder_setRed ..)
          rw [← hup]
          cases hc : f.red with
          | true =>
            rw [hc] at hrest
            refine ih _ n hrest (.inr ⟨isRed_mk .., ?_⟩)
            rw [setRed_mk]
            exact (rb_mk_black ..).2 ⟨ht, hs'⟩
          | false =>
            rw [hc] at hrest
            exact ih _ (n + 1) hrest (.inl ⟨isRed_mk .., (rb_mk_black ..).2 ⟨ht, hs'⟩⟩)
        · refine ⟨setRed false (plug top rest), by simp only [he], ?_, hrest.plug_black hrb ?_⟩
          · rw [inorder_setRed, inorder_plug, ho]
          intro hhead
          rw [htr]
          by_contra h
          obtain ⟨-, g, q, rfl, hg⟩ := hblack (by simpa using h)
          simp [headRed, hg] at hhead
    · refine ⟨_, by rw [removeFixup, if_pos hr], ?_, ?_⟩
      · rw [inorder_plug, inorder_setRed]
      · exact Fits.plug ⟨⟨_, ht, hctx⟩, fun _ => by cases t <;> rfl, by simp⟩

lemma before_append (p q : List (Frame α)) : before (p ++ q) = before q ++ before p := by
  induction p with
  | nil => simp [before]
  | cons f p ih => simp [before, ih]

lemma after_append (p q : List (Frame α)) : after (p ++ q) = after p ++ after q := by
  induction p with
  | nil => simp [after]
  | cons f p ih => simp [after, ih]

/-- The leftmost node comes first, and it has no left child. -/
lemma leftmost_spec (hne : t ≠ nil) : ∃ q red a r, (∀ p, leftmost t p = some (q ++ p, red, a, r)) ∧
    inorder t = a :: (inorder r ++ after q) ∧ before q = [] ∧ ∀ p, Fits t p → Fits (node red nil a r) (q ++ p) := by
  induction t with
  | nil => exact absurd rfl hne
  | node red l a r ihl _ =>
    cases hl : l with
    | nil => exact ⟨[], red, a, r, fun p => rfl, by simp [inorder, after], rfl, fun p h => h⟩
    | node lc ll la lr =>
      obtain ⟨q, c, b, r', hlm, hin, hbef, hfit⟩ := ihl (by simp [hl])
      refine ⟨q ++ [⟨.left, red, a, r⟩], c, b, r', fun p => ?_, ?_, ?_, fun p h => ?_⟩
      · rw [leftmost, ← hl, hlm, append_assoc]
        · rfl
        · simp
      · rw [← hl, inorder, hin, after_append]
        simp [after]
      · rw [before_append, hbef]
        rfl
      · rw [append_assoc]
        rw [← hl] at h
        exact hfit _ (Fits.down h)

/-- A node of which only one child is left. -/
lemma remove_splice {c : RbTree α} (h : Fits (node red l a r) p) (hc : (l = nil ∧ c = r) ∨ (r = nil ∧ c = l)) :
    ∃ t', (if red then some (plug c p) else removeFixup c p) = some t' ∧
      inorder t' = before p ++ (inorder l ++ inorder r) ++ after p ∧ Balanced t' := by
  have hin : inorder l ++ inorder r = inorder c := by
    rcases hc with ⟨rfl, rfl⟩ | ⟨rfl, rfl⟩ <;> simp [inorder]
  obtain ⟨⟨n, hrb, hctx⟩, hhead, hp⟩ := h
  rw [hin]
  cases red with
  | true =>
    obtain ⟨hlb, hrbk, hl, hr⟩ := hrb
    have hcb : isRed c = false ∧ Rb c n := by
      rcases hc with ⟨-, rfl⟩ | ⟨-, rfl⟩
      · exact ⟨hrbk, hr⟩
      · exact ⟨hlb, hl⟩
    refine ⟨plug c p, rfl, inorder_plug .., Fits.plug ⟨⟨n, hcb.2, hctx⟩, fun _ => hcb.1, ?_⟩⟩
    simp [hcb.1]
  | false =>
    obtain ⟨m, rfl, hl, hr⟩ := hrb
    have hcm : Rb c m := by
      rcases hc with ⟨-, rfl⟩ | ⟨-, rfl⟩
      · exact hr
      · exact hl
    refine removeFixup_spec p c m hctx ?_
    cases hcr : isRed c with
    | false => exact .inl ⟨hcr, hcm⟩
    | true => exact .inr ⟨hcr, hcm.black_of_red hcr⟩

lemma removeAt_spec (h : Fits (node red l a r) p) : ∃ t', removeAt p red l r = some t' ∧
    inorder t' = before p ++ (inorder l ++ inorder r) ++ after p ∧ Balanced t' := by
  match l, r, h with
  | nil, r, h => exact remove_splice h (.inl ⟨rfl, rfl⟩)
  | node lc ll la lr, nil, h => exact remove_splice h (.inr ⟨rfl, rfl⟩)
  | node lc ll la lr, node rc rl ra rr, h =>
    obtain ⟨q, c, b, r', hlm, hin, hbef, hfit⟩ := leftmost_spec (t := node rc rl ra rr) (by simp)
    -- the next node's value stands in the removed node
    have h' : Fits (mk .right red b (node rc rl ra rr) (node lc ll la lr)) p := by
      cases red <;> exact h
    obtain ⟨t', he, ho, hbal⟩ := remove_splice (hfit _ h'.down) (.inl ⟨rfl, rfl⟩)
    refine ⟨t', ?_, ?_, hbal⟩
    · rw [removeAt, hlm, append_nil]
      exact he
    rw [ho, before_append, after_append, hbef, hin]
    simp [before, after, inorder]

end Balance

/-! ## The operations -/

section Descend

omit [DecidableEq α]

/-- A search that goes right past every value of a first part and left of every
other one ends between them. -/
lemma descend_spec (goRight : α → Bool) (t : RbTree α) (p : List (Frame α)) (h : Fits t p)
    (hs : (inorder t).Pairwise fun x y => goRight y = true → goRight x = true) : Fits nil (descend goRight t p) ∧
    ∃ xs ys, inorder t = xs ++ ys ∧ (∀ x ∈ xs, goRight x = true) ∧ (∀ y ∈ ys, goRight y = false) ∧
    before (descend goRight t p) = before p ++ xs ∧ after (descend goRight t p) = ys ++ after p := by
  induction t generalizing p with
  | nil => exact ⟨h, [], [], rfl, by simp, by simp, by simp [descend], by simp [descend]⟩
  | node red l a r ihl ihr =>
    obtain ⟨hl, har, hlr⟩ := pairwise_append.1 hs
    obtain ⟨ha, hr⟩ := pairwise_cons.1 har
    cases hg : goRight a with
    | true =>
      obtain ⟨hfit, xs, ys, hin, hx, hy, hb, haf⟩ := ihr _ (Fits.down (d := .right) h) hr
      rw [descend, if_pos hg]
      refine ⟨hfit, inorder l ++ a :: xs, ys, by simp [inorder, hin], ?_, hy, ?_, ?_⟩
      · intro x hx'
        rcases mem_append.1 hx' with hx' | hx'
        · exact hlr x hx' a (by simp) hg
        rcases mem_cons.1 hx' with rfl | hx'
        · exact hg
        · exact hx x hx'
      · rw [hb]
        simp [before]
      · rw [haf]
        simp [after]
    | false =>
      obtain ⟨hfit, xs, ys, hin, hx, hy, hb, haf⟩ := ihl _ (Fits.down (d := .left) h) hl
      rw [descend, if_neg (by simp [hg])]
      refine ⟨hfit, xs, ys ++ a :: inorder r, by simp [inorder, hin], hx, ?_, ?_, ?_⟩
      · intro y hy'
        rcases mem_append.1 hy' with hy' | hy'
        · exact hy y hy'
        rcases mem_cons.1 hy' with rfl | hy'
        · exact hg
        by_contra hc
        have := ha y hy' (by simpa using hc)
        rw [hg] at this
        cases this
      · rw [hb]
        simp [before]
      · rw [haf]
        simp [after]

/-- Insertion where a search ends. -/
def insertWhere (goRight : α → Bool) (a : α) (t : RbTree α) : Option (RbTree α) := insertAt a (descend goRight t [])

lemma insertWhere_spec (goRight : α → Bool) (a : α) (h : Balanced t)
    (hs : (inorder t).Pairwise fun x y => goRight y = true → goRight x = true) :
    ∃ t' xs ys, insertWhere goRight a t = some t' ∧ Balanced t' ∧ inorder t = xs ++ ys ∧
      inorder t' = xs ++ a :: ys ∧ (∀ x ∈ xs, goRight x = true) ∧ (∀ y ∈ ys, goRight y = false) := by
  obtain ⟨⟨⟨n, hn, hctx⟩, -, -⟩, xs, ys, hin, hx, hy, hb, haf⟩ := descend_spec goRight t [] (fits_nil_iff.2 h) hs
  obtain rfl : n = 0 := hn
  obtain ⟨t', he, ho, hbal⟩ := insertFixup_spec _ (node true nil a nil) 0 hctx ⟨rfl, rfl, rfl, rfl⟩ rfl
  refine ⟨t', xs, ys, he, hbal, hin, ?_, hx, hy⟩
  rw [ho, hb, haf]
  simp [before, after, inorder]

lemma climb_eq (p : List (Frame α)) : climb p = (after p).head? := by
  induction p with
  | nil => rfl
  | cons f p ih =>
    cases hd : f.dir <;> simp [climb, after, hd, ih]

end Descend

lemma locate_none (h : a ∉ inorder t) (p : List (Frame α)) : locate a t p = none := by
  induction t generalizing p with
  | nil => rfl
  | node red l b r ihl ihr =>
    simp only [inorder, mem_append, mem_cons, not_or] at h
    rw [locate, if_neg (Ne.symm h.2.1), ihl h.1, ihr h.2.2]

lemma locate_spec (h : a ∈ inorder t) : ∃ q red l r, (∀ p, locate a t p = some (q ++ p, red, l, r)) ∧
      inorder t = before q ++ inorder l ++ a :: (inorder r ++ after q) ∧
      ∀ p, Fits t p → Fits (node red l a r) (q ++ p) := by
  induction t with
  | nil => cases h
  | node red l b r ihl ihr =>
    by_cases hb : b = a
    · subst hb
      exact ⟨[], red, l, r, fun p => by rw [locate, if_pos rfl]; rfl, by simp [before, after, inorder], fun p h => h⟩
    by_cases hl : a ∈ inorder l
    · obtain ⟨q, c, l', r', hloc, hin, hfit⟩ := ihl hl
      refine ⟨q ++ [⟨.left, red, b, r⟩], c, l', r', fun p => ?_, ?_, fun p h => ?_⟩
      · rw [locate, if_neg hb, hloc]
        simp
      · rw [inorder, hin, before_append, after_append]
        simp [before, after]
      · rw [append_assoc]
        exact hfit _ (Fits.down h)
    have hr : a ∈ inorder r := by
      rcases mem_append.1 h with h | h
      · exact absurd h hl
      · exact (mem_cons.1 h).resolve_left (Ne.symm hb)
    obtain ⟨q, c, l', r', hloc, hin, hfit⟩ := ihr hr
    refine ⟨q ++ [⟨.right, red, b, l⟩], c, l', r', fun p => ?_, ?_, fun p h => ?_⟩
    · rw [locate, if_neg hb, locate_none hl, hloc]
      simp
    · rw [inorder, hin, before_append, after_append]
      simp [before, after]
    · rw [append_assoc]
      exact hfit _ (Fits.down h)

/-- Removing a node removes its value and nothing else. -/
lemma removeNode_spec (h : Balanced t) (hn : (inorder t).Nodup) (ha : a ∈ inorder t) :
    ∃ t', removeNode a t = some t' ∧ inorder t' = (inorder t).erase a ∧ Balanced t' := by
  obtain ⟨q, red, l, r, hloc, hin, hfit⟩ := locate_spec ha
  obtain ⟨t', he, ho, hb⟩ := removeAt_spec (hfit [] (fits_nil_iff.2 h))
  rw [append_nil] at he ho
  refine ⟨t', by rw [removeNode, hloc, append_nil]; exact he, ?_, hb⟩
  have hnot : a ∉ before q ++ inorder l := by
    rw [hin] at hn
    exact fun hmem => (nodup_append.1 hn).2.2 a hmem a (by simp) rfl
  rw [ho, hin, erase_append_right _ hnot]
  simp

/-- The next node is the next one in the order. -/
lemma nextNode_spec {xs ys : List α} (hn : (inorder t).Nodup) (h : inorder t = xs ++ a :: ys) :
    nextNode a t = ys.head? := by
  obtain ⟨q, red, l, r, hloc, hin, -⟩ := locate_spec (a := a) (t := t) (by simp [h])
  have hys : ys = inorder r ++ after q := by
    rw [h] at hn hin
    have hxs : a ∉ xs := fun hm => (nodup_append.1 hn).2.2 a hm a (by simp) rfl
    have hys : a ∉ ys := (nodup_cons.1 (nodup_append.1 hn).2.1).1
    exact ((append_cons_inj_of_notMem hxs hys).1 hin).2.2
  rw [nextNode, hloc, hys]
  cases hr : r with
  | nil => simp [leftmost, climb_eq, inorder]
  | node c l' b r' =>
    obtain ⟨q', c', b', r'', hlm, hin', _⟩ := leftmost_spec (t := node c l' b r') (by simp)
    simp only [hlm, hin', cons_append, List.head?_cons]

end RbTree

end Hermes
