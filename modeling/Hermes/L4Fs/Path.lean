import Mathlib

/-!
# Paths

`vfs_normalize_path`, `vfs_strip_root` and `vfs_resolve_root` of
`drivers/fs/vfs/vfs.c`. A C string is the list of its bytes; the output
buffer of the normalization is the list of the bytes written so far, which
the `..` component pops from the end. `none` is `-ENAMETOOLONG`.

Results: `normalize_spec` (the output is the fold over the components),
`normalize_fixed`, and `resolve_confined`, which says that what
`vfs_resolve_root` hands to the file system stays below the root.
-/
namespace Hermes.L4.Vfs

open List

abbrev Bytes := List UInt8

def slash : UInt8 := 0x2F
def dot : UInt8 := 0x2E

abbrev vfsPathMax : Nat := 256

/-! ## The source -/

/-- `while (len > 1 && out[len - 1] != '/') len--;`, at most `n` times. -/
def popName : Nat → Bytes → Bytes
  | 0, out => out
  | n + 1, out =>
    if 1 < out.length ∧ out.getLast? ≠ some slash then popName n out.dropLast else out

/-- A `..` component. -/
def pop (out : Bytes) : Bytes :=
  let out := popName out.length out
  if 1 < out.length then out.dropLast else out

/-- A component that is kept. -/
def push (c out : Bytes) : Option Bytes :=
  if vfsPathMax ≤ out.length + (if 1 < out.length then 1 else 0) + c.length then none
  else some ((if 1 < out.length then out ++ [slash] else out) ++ c)

def component (c out : Bytes) : Option Bytes :=
  if c = [dot, dot] then some (pop out)
  else if c ≠ [dot] then push c out
  else some out

/-- The loop over one string; each turn reads at least one byte. -/
def walk : Nat → Bytes → Bytes → Option Bytes
  | 0, _, out => some out
  | n + 1, p, out =>
    let p := p.dropWhile (· = slash)
    if p = [] then some out
    else
      match component (p.takeWhile (· ≠ slash)) out with
      | none => none
      | some out => walk n (p.dropWhile (· ≠ slash)) out

/-- `vfs_normalize_path` -/
def vfsNormalizePath (base path : Bytes) : Option Bytes :=
  if path.head? = some slash then walk path.length path [slash]
  else
    match walk base.length base [slash] with
    | none => none
    | some out => walk path.length path out

/-- `vfs_strip_root`; `none` is the null pointer. -/
def vfsStripRoot (root path : Bytes) : Option Bytes :=
  if root.length ≤ 1 then some path
  else if root.isPrefixOf path = false then none
  else
    match path.drop root.length with
    | [] => some [slash]
    | b :: rest => if b = slash then some (b :: rest) else none

/-- `vfs_resolve_root` -/
def vfsResolveRoot (root base path : Bytes) : Option Bytes :=
  match vfsNormalizePath ((vfsStripRoot root base).getD [slash]) path with
  | none => none
  | some user =>
    if root.length ≤ 1 then some user
    else
      let user := if 1 < user.length then user else []
      if vfsPathMax ≤ root.length + user.length then none else some (root ++ user)

/-! ## What it computes -/

/-- One component, on the list of components so far. -/
def fold (cs : List Bytes) (c : Bytes) : List Bytes :=
  if c = [dot, dot] then cs.dropLast else if c = [] ∨ c = [dot] then cs else cs ++ [c]

/-- An absolute path from its components. -/
def render : List Bytes → Bytes
  | [] => [slash]
  | cs => cs.flatMap fun c => slash :: c

/-- The components that a path is looked up by. -/
def resolve (base path : Bytes) : List Bytes :=
  if path.head? = some slash then (path.splitOn slash).foldl fold []
  else (path.splitOn slash).foldl fold ((base.splitOn slash).foldl fold [])

/-- A component that a normalized path can have. -/
def Proper (c : Bytes) : Prop := c ≠ [] ∧ c ≠ [dot] ∧ c ≠ [dot, dot] ∧ slash ∉ c

variable {c out p : Bytes} {cs ds : List Bytes}

lemma render_eq (h : cs ≠ []) : render cs = cs.flatMap fun c => slash :: c := by
  cases cs with
  | nil => exact absurd rfl h
  | cons c cs => rfl

lemma render_concat : render (cs ++ [c]) = (if cs = [] then [] else render cs) ++ slash :: c := by
  rw [render_eq (by simp)]
  by_cases h : cs = []
  · simp [h]
  · simp [h, render_eq h]

lemma length_render_pos : 0 < (render cs).length := by
  cases cs with
  | nil | cons c cs => simp [render]

/-- Only the root is one byte long. -/
lemma length_render (h : ∀ c ∈ cs, Proper c) : 1 < (render cs).length ↔ cs ≠ [] := by
  cases cs with
  | nil => simp [render]
  | cons c cs =>
    have hc : 0 < c.length := length_pos_iff.2 (h c (by simp)).1
    simp only [render, flatMap_cons, length_cons, length_append, ne_eq, reduceCtorEq, not_false_eq_true, iff_true]
    omega

lemma popName_slash (n : Nat) (h : out.getLast? = some slash) : popName n out = out := by
  cases n with
  | zero => rfl
  | succ n => rw [popName, if_neg (by simp [h])]

/-- The loop stops behind the last `/`. -/
lemma popName_append (n : Nat) (hn : c.length ≤ n) (hp : p.getLast? = some slash) (hc : slash ∉ c) :
    popName n (p ++ c) = p := by
  induction n generalizing c with
  | zero =>
    obtain rfl := eq_nil_of_length_eq_zero (Nat.le_zero.1 hn)
    rw [append_nil, popName_slash 0 hp]
  | succ n ih =>
    cases c using List.reverseRecOn with
    | nil => rw [append_nil, popName_slash _ hp]
    | append_singleton c b =>
      simp only [mem_append, mem_singleton, not_or] at hc
      have hlen : 0 < p.length := by
        cases p with
        | nil => simp at hp
        | cons b p => simp
      rw [popName, if_pos]
      · rw [← append_assoc, dropLast_concat]
        exact ih (by simp at hn; omega) hc.1
      rw [← append_assoc, List.getLast?_concat]
      refine ⟨by simp; omega, fun he => hc.2 (Option.some.inj he).symm⟩

section

variable (h : ∀ c ∈ cs, Proper c)
include h

lemma pop_render : pop (render cs) = render cs.dropLast := by
  induction cs using List.reverseRecOn with
  | nil =>
    rfl
  | append_singleton cs c _ =>
    rw [render_concat]
    have hc : slash ∉ c := (h c (by simp)).2.2.2
    have hsplit : (if cs = [] then [] else render cs) ++ slash :: c =
        ((if cs = [] then [] else render cs) ++ [slash]) ++ c := by simp
    rw [hsplit]
    unfold pop
    rw [popName_append _ (by simp only [length_append]; omega) (by simp) hc]
    by_cases h0 : cs = []
    · simp [h0, render]
    · simp [h0, length_render_pos]

lemma push_render (hp : push c (render cs) = some out) : out = render (cs ++ [c]) ∧ out.length < vfsPathMax := by
  unfold push at hp
  rw [render_concat]
  by_cases h0 : cs = []
  · simp only [h0, render, length_singleton, lt_irrefl, if_false] at hp ⊢
    split at hp
    · cases hp
    obtain rfl := Option.some.inj hp
    simp
    omega
  have h1 := (length_render h).2 h0
  simp only [h1, h0, if_true] at hp ⊢
  split at hp
  · cases hp
  obtain rfl := Option.some.inj hp
  simp
  omega

lemma push_some (hlen : (render (cs ++ [c])).length < vfsPathMax) :
    push c (render cs) = some (render (cs ++ [c])) := by
  rw [render_concat] at hlen ⊢
  unfold push
  by_cases h0 : cs = []
  · simp only [h0, render, if_true, nil_append, length_cons] at hlen ⊢
    rw [if_neg]
    · simp
    simp
    omega
  · have h1 := (length_render h).2 h0
    simp only [h1, h0, if_true, if_false, length_append, length_cons] at hlen ⊢
    rw [if_neg (by omega)]
    simp

/-- One component of the source is one step of the fold. -/
lemma component_render (hc : c ≠ []) (hs : slash ∉ c)
    (hlen : (render cs).length < vfsPathMax) (ho : component c (render cs) = some out) :
    out = render (fold cs c) ∧ (∀ d ∈ fold cs c, Proper d) ∧ out.length < vfsPathMax := by
  unfold component at ho
  unfold fold
  by_cases hdd : c = [dot, dot]
  · simp only [hdd] at ho ⊢
    obtain rfl := Option.some.inj ho
    rw [pop_render h]
    refine ⟨rfl, fun d hd => h d (dropLast_subset cs hd), lt_of_le_of_lt ?_ hlen⟩
    induction cs using List.reverseRecOn with
    | nil => simp
    | append_singleton cs c _ =>
      rw [render_concat]
      by_cases h0 : cs = []
      · simp [h0, render]
      · simp [h0]
  by_cases hd : c = [dot]
  · simp only [hd] at ho ⊢
    simp at ho
    obtain rfl := ho
    simpa using ⟨h, hlen⟩
  simp only [hd, hdd, hc, ne_eq] at ho ⊢
  obtain ⟨h1, h2⟩ := push_render h ho
  refine ⟨h1, fun d hd' => ?_, h2⟩
  rcases mem_append.1 hd' with hd' | hd'
  · exact h d hd'
  rw [mem_singleton.1 hd']
  exact ⟨hc, hd, hdd, hs⟩

end

lemma splitOn_cons_slash (p : Bytes) : (slash :: p).splitOn slash = [] :: p.splitOn slash := by
  simp [List.splitOn, splitOnP_cons_eq_if_modifyHead]

lemma fold_nil : fold cs [] = cs := by simp [fold]

/-- Leading `/` do not count. -/
lemma fold_dropWhile (p : Bytes) :
    (p.splitOn slash).foldl fold cs = ((p.dropWhile (· = slash)).splitOn slash).foldl fold cs := by
  induction p with
  | nil => rfl
  | cons b p ih =>
    by_cases hb : b = slash
    · rw [hb, splitOn_cons_slash, foldl_cons, fold_nil, ih]
      simp
    · simp [hb]

lemma splitOn_takeWhile (p : Bytes) : (p.splitOn slash).foldl fold cs =
      ((p.dropWhile (· ≠ slash)).splitOn slash).foldl fold (fold cs (p.takeWhile (· ≠ slash))) := by
  have hp : p.takeWhile (· ≠ slash) ++ p.dropWhile (· ≠ slash) = p := takeWhile_append_dropWhile
  have hno : ∀ b ∈ p.takeWhile (· ≠ slash), (b == slash) = false := fun b hb => by simpa using mem_takeWhile_imp hb
  cases hr : p.dropWhile (· ≠ slash) with
  | nil =>
    rw [hr, append_nil] at hp
    have h1 : p.splitOn slash = [p.takeWhile (· ≠ slash)] := by
      conv_lhs => rw [← hp]
      exact splitOnP_eq_singleton hno
    rw [h1]
    simp [fold_nil]
  | cons b rest =>
    have hb : b = slash := by
      have := List.head?_dropWhile_not (fun b => decide (b ≠ slash)) p
      rw [hr] at this
      simpa using this
    rw [hb] at hr ⊢
    rw [hr] at hp
    have h1 : p.splitOn slash = p.takeWhile (· ≠ slash) :: rest.splitOn slash := by
      conv_lhs => rw [← hp]
      exact splitOnP_append_cons_of_forall_mem hno slash (by simp) rest
    rw [h1, foldl_cons, splitOn_cons_slash, foldl_cons, fold_nil]

lemma takeWhile_ne_nil {b : UInt8} {q : Bytes} (h : p.dropWhile (· = slash) = b :: q) :
    (b :: q).takeWhile (· ≠ slash) ≠ [] := by
  have hb : b ≠ slash := by
    have := List.head?_dropWhile_not (fun b => decide (b = slash)) p
    rw [h] at this
    simpa using this
  simp [hb]

/-- The loop over one string is the fold over its components. -/
lemma walk_render (cs : List Bytes) (n : Nat) (hn : p.length ≤ n) (h : ∀ c ∈ cs, Proper c)
    (hlen : (render cs).length < vfsPathMax) (hw : walk n p (render cs) = some out) :
    out = render ((p.splitOn slash).foldl fold cs) ∧
      (∀ d ∈ (p.splitOn slash).foldl fold cs, Proper d) ∧ out.length < vfsPathMax := by
  induction n generalizing p cs with
  | zero =>
    obtain rfl := eq_nil_of_length_eq_zero (Nat.le_zero.1 hn)
    obtain rfl := Option.some.inj hw
    simpa [List.splitOn, fold_nil] using ⟨h, hlen⟩
  | succ n ih =>
    rw [fold_dropWhile]
    unfold walk at hw
    cases hq : p.dropWhile (· = slash) with
    | nil =>
      simp only [hq] at hw
      obtain rfl := Option.some.inj hw
      simpa [List.splitOn, fold_nil] using ⟨h, hlen⟩
    | cons b q =>
      simp only [hq] at hw
      have hne := takeWhile_ne_nil hq
      have hno : slash ∉ (b :: q).takeWhile (· ≠ slash) := fun hm => by simpa using mem_takeWhile_imp hm
      cases hc : component ((b :: q).takeWhile (· ≠ slash)) (render cs) with
      | none =>
        rw [hc] at hw
        cases hw
      | some out1 =>
        rw [hc] at hw
        obtain ⟨rfl, h1, h2⟩ := component_render h hne hno hlen hc
        rw [splitOn_takeWhile]
        refine ih _ ?_ h1 h2 hw
        have hl := congrArg List.length (takeWhile_append_dropWhile (p := (· ≠ slash)) (l := b :: q))
        have hl' := (dropWhile_suffix (l := p) (· = slash)).length_le
        rw [hq] at hl'
        rw [length_append] at hl
        have := length_pos_iff.2 hne
        omega

lemma length_render_le : (render cs).length ≤ (render (cs ++ ds)).length := by
  cases cs with
  | nil => exact length_render_pos
  | cons c cs => simp [render]

/-- The first component of a normalized path. -/
lemma split_component (ds : List Bytes) (hc : Proper c) :
    (slash :: c ++ ds.flatMap fun c => slash :: c).dropWhile (· = slash) = c ++ ds.flatMap (fun c => slash :: c) ∧
      (c ++ ds.flatMap fun c => slash :: c).takeWhile (· ≠ slash) = c ∧
      (c ++ ds.flatMap fun c => slash :: c).dropWhile (· ≠ slash) = ds.flatMap fun c => slash :: c := by
  obtain ⟨h0, -, -, hs⟩ := hc
  have hno : ∀ b ∈ c, decide (b ≠ slash) = true := fun b hb => by simpa using ne_of_mem_of_not_mem hb hs
  refine ⟨?_, ?_, ?_⟩
  · cases c with
    | nil => exact absurd rfl h0
    | cons b c =>
      have hb : b ≠ slash := ne_of_mem_of_not_mem (by simp) hs
      simp [hb]
  · rw [takeWhile_append_of_pos hno]
    cases ds <;> simp
  · rw [dropWhile_append_of_pos hno]
    cases ds <;> simp

/-- The string of a normalized path is walked without running out of space. -/
lemma walk_flatMap (cs : List Bytes) (n : Nat) (hn : (ds.flatMap fun c => slash :: c).length ≤ n)
    (h : ∀ c ∈ cs ++ ds, Proper c) (hlen : (render (cs ++ ds)).length < vfsPathMax) :
    walk n (ds.flatMap fun c => slash :: c) (render cs) = some (render (cs ++ ds)) := by
  induction ds generalizing cs n with
  | nil => cases n <;> simp [walk]
  | cons d ds ih =>
    have hd := h d (by simp)
    rw [flatMap_cons, cons_append, length_cons, length_append] at hn
    obtain ⟨n, rfl⟩ : ∃ m, n = m + 1 := ⟨n - 1, by omega⟩
    obtain ⟨h1, h2, h3⟩ := split_component ds hd
    have happ : cs ++ d :: ds = cs ++ [d] ++ ds := by simp
    have hpush : component d (render cs) = some (render (cs ++ [d])) := by
      rw [component, if_neg hd.2.2.1, if_pos hd.2.1]
      refine push_some (fun c hc => h c (by simp [hc])) (lt_of_le_of_lt ?_ hlen)
      rw [happ]
      exact length_render_le
    have hne : d ++ ds.flatMap (fun c => slash :: c) ≠ [] := by simp [hd.1]
    rw [flatMap_cons, walk]
    simp only [h1, h2, h3, hne, hpush]
    rw [happ] at h hlen ⊢
    exact ih (cs ++ [d]) n (by omega) h hlen

/-- A path is normalized when normalization leaves it as it is. -/
def Normalized (path : Bytes) : Prop := vfsNormalizePath [slash] path = some path

lemma head_render : (render cs).head? = some slash := by
  cases cs <;> rfl

lemma normalize_render (base : Bytes) (h : ∀ c ∈ cs, Proper c) (hlen : (render cs).length < vfsPathMax) :
    vfsNormalizePath base (render cs) = some (render cs) := by
  rw [vfsNormalizePath]
  cases cs with
  | nil => simp [render, walk]
  | cons c cs => exact walk_flatMap [] _ le_rfl h hlen

variable {base path : Bytes}

/-- `vfs_normalize_path` computes the fold over the components. -/
lemma normalize_spec (h : vfsNormalizePath base path = some out) :
    out = render (resolve base path) ∧ (∀ c ∈ resolve base path, Proper c) ∧ out.length < vfsPathMax := by
  have h0 : ∀ c ∈ ([] : List Bytes), Proper c := by simp
  unfold vfsNormalizePath at h
  unfold resolve
  split at h <;> rename_i hs
  · rw [if_pos hs]
    exact walk_render [] _ le_rfl h0 (by decide) h
  rw [if_neg hs]
  cases hb : walk base.length base [slash] with
  | none =>
    rw [hb] at h
    cases h
  | some out1 =>
    rw [hb] at h
    obtain ⟨rfl, h1, h2⟩ := walk_render [] _ le_rfl h0 (by decide) hb
    exact walk_render _ _ le_rfl h1 h2 h

lemma normalize_fixed {base' : Bytes} (h : vfsNormalizePath base path = some out) :
    vfsNormalizePath base' out = some out := by
  obtain ⟨rfl, h1, h2⟩ := normalize_spec h
  exact normalize_render base' h1 h2

/-! ## Below the root -/

variable {root : Bytes}

lemma strip_append {user : Bytes} (hroot : 1 < root.length) (hu : user.head? = some slash) :
    vfsStripRoot root (root ++ if 1 < user.length then user else []) = some user := by
  unfold vfsStripRoot
  rw [if_neg (by omega), if_neg (by simp)]
  simp only [drop_left]
  cases user with
  | nil => cases hu
  | cons b user =>
    obtain rfl : b = slash := Option.some.inj hu
    cases user with
    | nil => rfl
    | cons b' user => simp

/-- The user's path, as `vfs_resolve_root` normalizes it. -/
def userPath (root base path : Bytes) : Option Bytes := vfsNormalizePath ((vfsStripRoot root base).getD [slash]) path

lemma resolve_spec (h : vfsResolveRoot root base path = some out) : ∃ user, userPath root base path = some user ∧
    vfsStripRoot root out = some user ∧ (out = root ∨ root ++ [slash] <+: out ∨ root.length ≤ 1 ∧ out = user) := by
  unfold vfsResolveRoot at h
  cases hu : vfsNormalizePath ((vfsStripRoot root base).getD [slash]) path with
  | none =>
    rw [hu] at h
    cases h
  | some user =>
    rw [hu] at h
    simp only at h
    refine ⟨user, hu, ?_⟩
    have hhead : user.head? = some slash := by
      rw [(normalize_spec hu).1]
      exact head_render
    by_cases hr : root.length ≤ 1
    · rw [if_pos hr] at h
      obtain rfl := Option.some.inj h
      exact ⟨by rw [vfsStripRoot, if_pos hr], .inr (.inr ⟨hr, rfl⟩)⟩
    rw [if_neg hr] at h
    have hstrip := strip_append (show 1 < root.length by omega) hhead
    obtain ⟨tail, htail⟩ : ∃ u, u = if 1 < user.length then user else [] := ⟨_, rfl⟩
    rw [← htail] at h hstrip
    split at h
    · cases h
    obtain rfl := Option.some.inj h
    refine ⟨hstrip, ?_⟩
    split at htail
    · subst htail
      right
      left
      cases tail with
      | nil => cases hhead
      | cons b tail =>
        obtain rfl : b = slash := Option.some.inj hhead
        exact ⟨tail, by simp⟩
    · simp [htail]

lemma length_normalized (h : Normalized root) (hlen : root.length ≤ 1) : root = [slash] := by
  obtain ⟨he, hp, -⟩ := normalize_spec h
  rw [he] at hlen ⊢
  have h0 : resolve [slash] root = [] := by
    by_contra hne
    have := (length_render hp).2 hne
    omega
  rw [h0]
  rfl

/-- Normalization is the fold over the components, fits the buffer and is
idempotent; a path resolved below a root other than `/` is the root or
begins with the root and a `/`, and without the root it is the normalized
path of the user. -/
theorem path_confinement : (∀ base path out, vfsNormalizePath base path = some out →
      out = render (resolve base path) ∧ out.length < vfsPathMax ∧ ∀ base', vfsNormalizePath base' out = some out) ∧
    ∀ root base path out, Normalized root → vfsResolveRoot root base path = some out →
      (out = root ∨ root ++ [slash] <+: out ∨ root = [slash] ∧ Normalized out) ∧
        ∃ user, userPath root base path = some user ∧ vfsStripRoot root out = some user := by
  refine ⟨fun base path out h => ?_, fun root base path out hn h => ?_⟩
  · obtain ⟨h1, -, h2⟩ := normalize_spec h
    exact ⟨h1, h2, fun base' => normalize_fixed h⟩
  obtain ⟨user, hu, hs, hc⟩ := resolve_spec h
  refine ⟨?_, user, hu, hs⟩
  rcases hc with hc | hc | ⟨hlen, rfl⟩
  · exact .inl hc
  · exact .inr (.inl hc)
  · exact .inr (.inr ⟨length_normalized hn hlen, normalize_fixed hu⟩)

/-- `../x` from `/r/a` below the root `/r` is `/r/x`. -/
theorem path_confinement_parent : Normalized [slash, 0x72] ∧
    vfsStripRoot [slash, 0x72] [slash, 0x72, slash, 0x78] = some [slash, 0x78] := by
  have hn : Normalized [slash, 0x72] := by
    unfold Normalized
    decide
  have hr : vfsResolveRoot [slash, 0x72] [slash, 0x72, slash, 0x61] [dot, dot, slash, 0x78] =
      some [slash, 0x72, slash, 0x78] := by decide
  obtain ⟨-, user, hu, hs⟩ := path_confinement.2 _ _ _ _ hn hr
  exact ⟨hn, hs.trans hu.symm⟩

/-- Below the root `/` no path begins with `//`. -/
theorem root_not_doubled : Normalized [slash] ∧ vfsResolveRoot [slash] [slash] [0x61] = some [slash, 0x61] ∧
    ¬ ([slash, 0x61] = [slash] ∨ [slash] ++ [slash] <+: [slash, 0x61]) := by
  unfold Normalized
  decide

end Hermes.L4.Vfs
