import Hermes.Core.LTS

/-!
# Terminal input

`drivers/terminal/tty.c`: the line discipline of a terminal. `buf[0 .. len)` is a list here; `cooked` counts the
characters of it that may be read in canonical mode and `eof` the end-of-file characters that are to be read.

`Discipline` is what a line discipline is for: a stream of finished pieces, in their order, and the line that is being
edited. The two agree as long as an end-of-file character is typed only at the beginning of a line, and a newline
only while no end-of-file waits and the buffer has room.
-/
namespace Hermes.L6.Terminal

open List

abbrev Bytes := List UInt8

/-- `TTY_BUFFER` -/
abbrev ttyBuffer : Nat := 1024

abbrev icrnl : UInt32 := 0x0100
abbrev opost : UInt32 := 0x0001
abbrev onlcr : UInt32 := 0x0004
abbrev isig : UInt32 := 0x0001
abbrev icanon : UInt32 := 0x0002
abbrev echoFlag : UInt32 := 0x0008
abbrev echoctl : UInt32 := 0x0200
abbrev vintr : Fin 19 := 0
abbrev vquit : Fin 19 := 1
abbrev verase : Fin 19 := 2
abbrev vkill : Fin 19 := 3
abbrev veof : Fin 19 := 4
abbrev newline : UInt8 := 0x0A
abbrev backspace : UInt8 := 0x08
abbrev sigint : Nat := 2
abbrev sigquit : Nat := 3

/-- `struct termios_k` -/
structure Termios where
  iflag : UInt32
  oflag : UInt32
  lflag : UInt32
  cc : Fin 19 → UInt8

/-- `TTY_DEFAULT` -/
def Termios.default : Termios where
  iflag := icrnl
  oflag := opost ||| onlcr
  lflag := 0x823B
  cc := fun i => [0x03, 0x1C, 0x7F, 0x15, 0x04, 0, 1].getD i.val 0

/-- `struct tty`; `screen` is what has been given to `terminal_write`, with its last argument, and `signals` what has
been sent to the process group. -/
structure Tty where
  termios : Termios
  buf : Bytes
  cooked : Nat
  eof : Nat
  screen : List (Bytes × Bool)
  signals : List Nat
  len_le : buf.length ≤ ttyBuffer
  cooked_le : cooked ≤ buf.length

/-- A terminal on which nothing has been typed. -/
def Tty.fresh (tm : Termios) : Tty := ⟨tm, [], 0, 0, [], [], by decide, le_refl 0⟩

variable (t : Tty)

/-- `tty_output` -/
def ttyOutput (b : Bytes) : Tty :=
  { t with screen := t.screen ++ [(b, t.termios.oflag &&& opost ≠ 0 && t.termios.oflag &&& onlcr ≠ 0)] }

/-- `tty_echo` -/
def ttyEcho (c : UInt8) : Tty :=
  if t.termios.lflag &&& echoFlag = 0 then t
  else if ((c < 0x20 ∧ c ≠ newline ∧ c ≠ 0x09) ∨ c = 0x7F) ∧ t.termios.lflag &&& echoctl ≠ 0 then
    ttyOutput t [0x5E, if c = 0x7F then 0x3F else c + 0x40]
  else ttyOutput t [c]

/-- The cursor goes back `n` times over what was typed. -/
def eraseEcho : Nat → Tty → Tty
  | 0, t => t
  | n + 1, t => eraseEcho n (ttyOutput t [0x08, 0x20, 0x08])

/-- The last character of the line that is not finished. -/
def dropChar (h : t.cooked < t.buf.length) : Tty := { t with
    buf := t.buf.dropLast
    len_le := by have := t.len_le; simp only [length_dropLast]; omega
    cooked_le := by simp only [length_dropLast]; omega }

/-- `tty_erase` -/
def ttyErase : Tty :=
  if h : t.cooked < t.buf.length then
    let c := t.buf.getLast (ne_nil_of_length_pos (Nat.zero_lt_of_lt h))
    let t := dropChar t h
    if t.termios.lflag &&& echoFlag = 0 then t
    else eraseEcho (if (c < 0x20 ∨ c = 0x7F) ∧ c ≠ 0x09 ∧ t.termios.lflag &&& echoctl ≠ 0 then 2 else 1) t
  else t

/-- `while (t->len > t->cooked) tty_erase(t);` in `n` turns -/
def eraseAll : Nat → Tty → Tty
  | 0, t => t
  | n + 1, t => if t.cooked < t.buf.length then eraseAll n (ttyErase t) else t

/-- `tty_canonical` -/
def ttyCanonical : Bool := t.termios.lflag &&& icanon ≠ 0

/-- `tty_readable` -/
def ttyReadable : Nat := if ttyCanonical t then t.cooked else t.buf.length

/-- `t->len = t->cooked;` -/
def cutLine : Tty := { t with
    buf := t.buf.take t.cooked
    len_le := by have := t.len_le; simp only [length_take]; omega
    cooked_le := by have := t.cooked_le; simp only [length_take]; omega }

/-- `tty_signal` -/
def ttySignal (c : UInt8) (sig : Nat) : Tty :=
  let t := ttyOutput (ttyEcho (cutLine t) c) [newline]
  { t with signals := t.signals ++ [sig] }

/-- `t->cooked = t->len;` -/
def cook : Tty := { t with cooked := t.buf.length, cooked_le := le_refl _ }

/-- `t->buf[t->len++] = c;` -/
def addChar (c : UInt8) (h : t.buf.length < ttyBuffer) : Tty := { t with
    buf := t.buf ++ [c]
    len_le := by simp only [length_append, length_singleton]; omega
    cooked_le := by have := t.cooked_le; simp only [length_append, length_singleton]; omega }

/-- What a character is to the line discipline. -/
inductive Key
  | signal (sig : Nat)
  | erase
  | kill
  | eof
  | char

/-- The comparisons of `tty_receive`, in their order. -/
def Termios.key (tm : Termios) (c : UInt8) : Key :=
  if tm.lflag &&& isig ≠ 0 ∧ c = tm.cc vintr then .signal sigint
  else if tm.lflag &&& isig ≠ 0 ∧ c = tm.cc vquit then .signal sigquit
  else if tm.lflag &&& icanon ≠ 0 ∧ (c = backspace ∨ c = tm.cc verase) then .erase
  else if tm.lflag &&& icanon ≠ 0 ∧ c = tm.cc vkill then .kill
  else if tm.lflag &&& icanon ≠ 0 ∧ c = tm.cc veof then .eof
  else .char

/-- `c == '\r' && (tm->c_iflag & TTY_ICRNL)` -/
def Termios.mapped (tm : Termios) (c : UInt8) : UInt8 := if c = 0x0D ∧ tm.iflag &&& icrnl ≠ 0 then newline else c

/-- `tty_receive` of a character, by what it is -/
def receiveKey (c : UInt8) : Key → Tty
  | .signal sig => ttySignal t c sig
  | .erase => ttyErase t
  | .kill => eraseAll (t.buf.length - t.cooked) t
  | .eof => { cook t with eof := t.eof + 1 }
  | .char =>
    if h : t.buf.length < ttyBuffer then
      let t := ttyEcho (addChar t c h) c
      if c = newline ∨ ttyCanonical t = false then cook t else t
    else t

/-- `tty_receive` -/
def ttyReceive (c : UInt8) : Tty := receiveKey t (t.termios.mapped c) (t.termios.key (t.termios.mapped c))

/-- How much `tty_read` takes: up to the first newline in canonical mode. -/
def readSize (len : Nat) : Nat :=
  let n := min (ttyReadable t) len
  if ttyCanonical t then
    match (t.buf.take n).findIdx? (· = newline) with
    | some i => i + 1
    | none => n
  else n

/-- The first `n` characters taken out. -/
def takeChars (n : Nat) : Tty := { t with
    buf := t.buf.drop n
    cooked := t.cooked - n
    len_le := by have := t.len_le; simp only [length_drop]; omega
    cooked_le := by have := t.cooked_le; simp only [length_drop]; omega }

/-- `tty_read`; `none` when there is nothing to read, so that it returns `-EAGAIN` or sleeps. -/
def ttyRead (len : Nat) : Option Bytes × Tty :=
  if ttyReadable t = 0 then
    if ttyCanonical t = true ∧ 0 < t.eof then (some [], { t with eof := t.eof - 1 }) else (none, t)
  else if len = 0 then (some [], t)
  else (some (t.buf.take (readSize t len)), takeChars t (readSize t len))

/-! ## What happens to a terminal -/

inductive Event
  | input (c : UInt8)
  | read (len : Nat)

/-- The result of a read, and the terminal after an event. -/
def exec : Event → Option (Option Bytes) × Tty
  | .input c => (none, ttyReceive t c)
  | .read len => let r := ttyRead t len; (some r.1, r.2)

/-- What the reads of a schedule return. -/
def results : Tty → List Event → List (Option Bytes)
  | _, [] => []
  | t, e :: es => (exec t e).1.toList ++ results (exec t e).2 es

/-! ## The line discipline -/

/-- A finished piece of the input. -/
inductive Piece
  | text (b : Bytes)
  | eof

def Piece.bytes : Piece → Bytes
  | .text b => b
  | .eof => []

/-- `done` is what has been finished and is to be read, `cur` the line that is being typed. -/
structure Discipline where
  done : List Piece
  cur : Bytes

namespace Discipline

def empty : Discipline := ⟨[], []⟩

/-- The characters it holds. -/
def size (d : Discipline) : Nat := (d.done.flatMap Piece.bytes).length + d.cur.length

/-- A character that is typed. A newline finishes its line whatever the discipline holds. -/
def receiveKey (d : Discipline) (c : UInt8) : Key → Discipline
  | .signal _ => ⟨d.done, []⟩
  | .erase => ⟨d.done, d.cur.dropLast⟩
  | .kill => ⟨d.done, []⟩
  | .eof => if d.cur = [] then ⟨d.done ++ [.eof], []⟩ else ⟨d.done ++ [.text d.cur], []⟩
  | .char =>
    if c = newline then ⟨d.done ++ [.text (d.cur ++ [c])], []⟩
    else if d.size < ttyBuffer then ⟨d.done, d.cur ++ [c]⟩
    else d

def receive (tm : Termios) (d : Discipline) (c : UInt8) : Discipline :=
  d.receiveKey (tm.mapped c) (tm.key (tm.mapped c))

/-- A read takes from the first piece. -/
def read (d : Discipline) (len : Nat) : Option Bytes × Discipline :=
  match d.done with
  | [] => (none, d)
  | .eof :: rest => (some [], ⟨rest, d.cur⟩)
  | .text b :: rest =>
    if len = 0 then (some [], d)
    else (some (b.take len), ⟨if len < b.length then .text (b.drop len) :: rest else rest, d.cur⟩)

def exec (tm : Termios) (d : Discipline) : Event → Option (Option Bytes) × Discipline
  | .input c => (none, d.receive tm c)
  | .read len => let r := d.read len; (some r.1, r.2)

def results (tm : Termios) : Discipline → List Event → List (Option Bytes)
  | _, [] => []
  | d, e :: es => (d.exec tm e).1.toList ++ results tm (d.exec tm e).2 es

end Discipline

/-! ## Echoing -/

variable {t : Tty} {d : Discipline} {tm : Termios} {c : UInt8} {len n : Nat}

/-- Only the screen has changed. -/
structure Quiet (t t' : Tty) : Prop where
  termios : t'.termios = t.termios
  buf : t'.buf = t.buf
  cooked : t'.cooked = t.cooked
  eof : t'.eof = t.eof

lemma Quiet.trans {t' t'' : Tty} (h : Quiet t t') (h' : Quiet t' t'') : Quiet t t'' :=
  ⟨h'.termios.trans h.termios, h'.buf.trans h.buf, h'.cooked.trans h.cooked, h'.eof.trans h.eof⟩

lemma ttyOutput_quiet (b : Bytes) : Quiet t (ttyOutput t b) := ⟨rfl, rfl, rfl, rfl⟩

lemma ttyEcho_quiet (c : UInt8) : Quiet t (ttyEcho t c) := by
  unfold ttyEcho
  split
  · exact ⟨rfl, rfl, rfl, rfl⟩
  split <;> exact ttyOutput_quiet _

lemma eraseEcho_quiet (n : Nat) : Quiet t (eraseEcho n t) := by
  induction n generalizing t with
  | zero => exact ⟨rfl, rfl, rfl, rfl⟩
  | succ n ih => exact (ttyOutput_quiet _).trans ih

lemma ttyErase_of_lt (h : t.cooked < t.buf.length) : Quiet (dropChar t h) (ttyErase t) := by
  unfold ttyErase
  rw [dif_pos h]
  dsimp only
  split
  · exact ⟨rfl, rfl, rfl, rfl⟩
  · exact eraseEcho_quiet _

/-- `tty_erase` stops at the characters that may be read. -/
lemma eraseAll_eq (n : Nat) : (eraseAll n t).termios = t.termios ∧ (eraseAll n t).eof = t.eof ∧
    (eraseAll n t).cooked = t.cooked ∧ (eraseAll n t).buf = t.buf.take (max t.cooked (t.buf.length - n)) := by
  induction n generalizing t with
  | zero =>
    have := t.cooked_le
    refine ⟨rfl, rfl, rfl, ?_⟩
    rw [Nat.sub_zero, max_eq_right this, take_length]
    rfl
  | succ n ih =>
    rw [eraseAll]
    split
    · rename_i h
      have hq := ttyErase_of_lt h
      have hb : (ttyErase t).buf = t.buf.dropLast := hq.buf
      have hc : (ttyErase t).cooked = t.cooked := hq.cooked
      obtain ⟨h1, h2, h3, h4⟩ := ih
      refine ⟨h1.trans hq.termios, h2.trans hq.eof, h3.trans hc, ?_⟩
      rw [h4, hb, length_dropLast, dropLast_eq_take, take_take]
      congr 1
      omega
    · refine ⟨rfl, rfl, rfl, ?_⟩
      rw [take_of_length_le (by omega)]

/-! ## The two agree -/

/-- A line that has been finished. -/
def IsLine (l : Bytes) : Prop := ∃ b, newline ∉ b ∧ l = b ++ [newline]

/-- The buffer holds the finished lines and the unfinished one; what waits behind the lines are ends of file. -/
structure Holds (t : Tty) (d : Discipline) (ls : List Bytes) : Prop where
  done : d.done = ls.map Piece.text ++ List.replicate t.eof Piece.eof
  lines : ∀ l ∈ ls, IsLine l
  buf : t.buf = ls.flatten ++ d.cur
  cooked : t.cooked = ls.flatten.length
  cur : newline ∉ d.cur

/-- Not an end of file within a line, and no newline behind an end of file that waits, or without room. -/
def orderlyKey (t : Tty) (c : UInt8) : Key → Bool
  | .eof => t.cooked = t.buf.length
  | .char => c ≠ newline || (t.eof = 0 && t.buf.length < ttyBuffer)
  | _ => true

def orderly (t : Tty) : Event → Bool
  | .read _ => true
  | .input c => orderlyKey t (t.termios.mapped c) (t.termios.key (t.termios.mapped c))

variable {ls : List Bytes}

namespace Holds

lemma quiet {t' : Tty} (h : Holds t d ls) (hq : Quiet t t') : Holds t' d ls :=
  ⟨hq.eof ▸ h.done, h.lines, hq.buf.trans h.buf, hq.cooked.trans h.cooked, h.cur⟩

lemma fresh (tm : Termios) : Holds (Tty.fresh tm) .empty [] := ⟨rfl, nofun, rfl, rfl, nofun⟩

lemma size_eq (h : Holds t d ls) : d.size = t.buf.length := by
  have hmap : ∀ ls : List Bytes, (ls.map Piece.text).flatMap Piece.bytes = ls.flatten := by
    intro ls
    induction ls with
    | nil => rfl
    | cons l ls ih => rw [map_cons, flatMap_cons, ih]; rfl
  have heof : ∀ n, (List.replicate n Piece.eof).flatMap Piece.bytes = [] := by
    intro n
    induction n with
    | zero => rfl
    | succ n ih => rw [replicate_succ, flatMap_cons, ih]; rfl
  rw [Discipline.size, h.done, flatMap_append, hmap, heof, h.buf, append_nil, length_append]

/-- The unfinished line is what stands behind `cooked`. -/
lemma cut (h : Holds t d ls) {t' : Tty} (he : t'.eof = t.eof) (hc : t'.cooked = t.cooked)
    (hb : t'.buf = t.buf.take t.cooked) : Holds t' ⟨d.done, []⟩ ls := by
  refine ⟨he ▸ h.done, h.lines, ?_, hc.trans h.cooked, nofun⟩
  rw [hb, h.buf, h.cooked, take_left', append_nil]
  rfl

lemma erase (h : Holds t d ls) : Holds (ttyErase t) ⟨d.done, d.cur.dropLast⟩ ls := by
  by_cases hlt : t.cooked < t.buf.length
  · have hq := ttyErase_of_lt hlt
    have hne : d.cur ≠ [] := by
      intro hnil
      rw [h.buf, h.cooked, hnil, append_nil] at hlt
      exact lt_irrefl _ hlt
    refine Holds.quiet (t := dropChar t hlt) ⟨h.done, h.lines, ?_, h.cooked, fun hm => ?_⟩ hq
    · show t.buf.dropLast = _
      rw [h.buf, dropLast_append_of_ne_nil hne]
    · exact h.cur (dropLast_subset _ hm)
  · have hnil : d.cur = [] := by
      rw [h.buf, h.cooked, length_append] at hlt
      exact eq_nil_of_length_eq_zero (by omega)
    have hsame : ttyErase t = t := dif_neg hlt
    rw [hsame, hnil]
    exact ⟨h.done, h.lines, by rw [h.buf, hnil]; rfl, h.cooked, nofun⟩

/-- A character is typed. -/
lemma receive {x : UInt8} {k : Key} (h : Holds t d ls) (hcan : ttyCanonical t = true)
    (hok : orderlyKey t x k = true) : ∃ ls', Holds (receiveKey t x k) (d.receiveKey x k) ls' := by
  cases k with
  | signal sig =>
    -- the line that is being typed is dropped
    have hq : Quiet (cutLine t) (ttyOutput (ttyEcho (cutLine t) x) [newline]) :=
      (ttyEcho_quiet x).trans (ttyOutput_quiet _)
    have hcut : Holds (ttySignal t x sig) (d.receiveKey x (.signal sig)) ls := h.cut hq.eof hq.cooked hq.buf
    exact ⟨ls, hcut⟩
  | erase => exact ⟨ls, h.erase⟩
  | kill =>
    obtain ⟨-, h2, h3, h4⟩ := eraseAll_eq (t := t) (t.buf.length - t.cooked)
    have hmax : max t.cooked (t.buf.length - (t.buf.length - t.cooked)) = t.cooked := by
      have := t.cooked_le
      omega
    rw [hmax] at h4
    exact ⟨ls, h.cut h2 h3 h4⟩
  | eof =>
    have hok : t.cooked = t.buf.length := of_decide_eq_true hok
    have hnil : d.cur = [] := by
      rw [h.buf, h.cooked, length_append] at hok
      exact eq_nil_of_length_eq_zero (by omega)
    refine ⟨ls, ?_⟩
    have hd : d.receiveKey x .eof = ⟨d.done ++ [.eof], []⟩ := if_pos hnil
    rw [hd]
    refine ⟨?_, h.lines, ?_, ?_, nofun⟩
    · show d.done ++ [Piece.eof] = _ ++ List.replicate (t.eof + 1) Piece.eof
      rw [h.done, append_assoc, replicate_succ']
    · show t.buf = _
      rw [h.buf, hnil]
    · show t.buf.length = _
      rw [← hok, h.cooked]
  | char =>
    by_cases hnl : x = newline
    · subst hnl
      have hok : t.eof = 0 ∧ t.buf.length < ttyBuffer := by simpa [orderlyKey] using hok
      obtain ⟨heof, hroom⟩ := hok
      have hq := ttyEcho_quiet (t := addChar t newline hroom) newline
      have ht : receiveKey t newline .char = cook (ttyEcho (addChar t newline hroom) newline) := by
        unfold receiveKey
        rw [dif_pos hroom]
        exact if_pos (.inl rfl)
      have hd : d.receiveKey newline .char = ⟨d.done ++ [.text (d.cur ++ [newline])], []⟩ := rfl
      rw [ht, hd]
      refine ⟨ls ++ [d.cur ++ [newline]], ?_, ?_, ?_, ?_, nofun⟩
      · show d.done ++ _ = _ ++ List.replicate (ttyEcho (addChar t newline hroom) newline).eof Piece.eof
        rw [hq.eof, h.done]
        show _ = _ ++ List.replicate t.eof Piece.eof
        simp [heof]
      · intro l hl
        rcases mem_append.1 hl with hl | hl
        · exact h.lines l hl
        · exact ⟨d.cur, h.cur, mem_singleton.1 hl⟩
      · show (ttyEcho (addChar t newline hroom) newline).buf = _
        rw [hq.buf]
        show t.buf ++ [newline] = _
        rw [h.buf]
        simp
      · show (ttyEcho (addChar t newline hroom) newline).buf.length = _
        rw [hq.buf]
        show (t.buf ++ [newline]).length = _
        rw [h.buf]
        simp
    · by_cases hroom : t.buf.length < ttyBuffer
      · have hq := ttyEcho_quiet (t := addChar t x hroom) x
        have hcan' : ttyCanonical (ttyEcho (addChar t x hroom) x) = true := by
          unfold ttyCanonical
          rw [hq.termios]
          exact hcan
        have ht : receiveKey t x .char = ttyEcho (addChar t x hroom) x := by
          unfold receiveKey
          rw [dif_pos hroom]
          exact if_neg (by simp [hnl, hcan'])
        have hd : d.receiveKey x .char = ⟨d.done, d.cur ++ [x]⟩ := (if_neg hnl).trans (if_pos (h.size_eq ▸ hroom))
        rw [ht, hd]
        refine ⟨ls, ?_⟩
        refine Holds.quiet (t := addChar t x hroom) ⟨h.done, h.lines, ?_, h.cooked, fun hm => ?_⟩ hq
        · show t.buf ++ [x] = _
          rw [h.buf, append_assoc]
        rcases mem_append.1 hm with hm | hm
        · exact h.cur hm
        · exact hnl (mem_singleton.1 hm).symm
      · have ht : receiveKey t x .char = t := dif_neg hroom
        have hd : d.receiveKey x .char = d := (if_neg hnl).trans (if_neg (h.size_eq ▸ hroom))
        rw [ht, hd]
        exact ⟨ls, h⟩

/-- The first line ends at the first newline. -/
lemma readSize_eq {l : Bytes} (h : Holds t d (l :: ls)) (hcan : ttyCanonical t = true) :
    readSize t len = min l.length len := by
  obtain ⟨b, hb, rfl⟩ := h.lines l (by simp)
  have hcook : t.cooked = (b ++ [newline]).length + ls.flatten.length := by rw [h.cooked, flatten_cons, length_append]
  have htake : ∀ n, t.buf.take n = ((b ++ [newline]) ++ (ls.flatten ++ d.cur)).take n := by
    intro n
    rw [h.buf, flatten_cons, append_assoc]
  unfold readSize ttyReadable
  simp only [hcan, if_true, hcook]
  rw [htake]
  by_cases hlen : b.length < len
  · -- the newline is among what is taken
    have hidx : (((b ++ [newline]) ++ (ls.flatten ++ d.cur)).take
        (min ((b ++ [newline]).length + ls.flatten.length) len)).findIdx? (· = newline) = some b.length := by
      rw [List.findIdx?_eq_some_iff_getElem]
      refine ⟨?_, ?_, fun j hj => ?_⟩
      · simp only [length_take, length_append, length_singleton]
        omega
      · simp
      simp only [getElem_take, append_assoc]
      rw [getElem_append_left hj]
      simp only [decide_eq_true_eq]
      exact fun he => hb (he ▸ getElem_mem hj)
    rw [hidx]
    simp only [length_append, length_singleton]
    omega
  have hidx : (((b ++ [newline]) ++ (ls.flatten ++ d.cur)).take
      (min ((b ++ [newline]).length + ls.flatten.length) len)).findIdx? (· = newline) = none := by
    rw [List.findIdx?_eq_none_iff]
    intro x hx
    have hsub : (((b ++ [newline]) ++ (ls.flatten ++ d.cur)).take
        (min ((b ++ [newline]).length + ls.flatten.length) len)) = b.take len := by
      rw [append_assoc, take_append_of_le_length (by omega)]
      congr 1
      simp only [length_append]
      omega
    rw [hsub] at hx
    simp only [decide_eq_false_iff_not]
    exact fun he => hb (he ▸ mem_of_mem_take hx)
  rw [hidx]
  simp only [length_append]
  omega

/-- A read takes from the first piece. -/
lemma read (h : Holds t d ls) (hcan : ttyCanonical t = true) (len : Nat) :
    (ttyRead t len).1 = (d.read len).1 ∧ ∃ ls', Holds (ttyRead t len).2 (d.read len).2 ls' := by
  cases ls with
  | nil =>
    have h0 : ttyReadable t = 0 := by
      unfold ttyReadable
      rw [if_pos hcan]
      exact h.cooked
    unfold ttyRead
    rw [if_pos h0]
    cases he : t.eof with
    | zero =>
      have hd : d.done = [] := by rw [h.done, he]; rfl
      simp only [hcan, lt_irrefl, and_false, if_false, Discipline.read, hd]
      exact ⟨trivial, [], h⟩
    | succ n =>
      have hd : d.done = Piece.eof :: List.replicate n Piece.eof := by rw [h.done, he]; rfl
      simp only [hcan, Nat.succ_pos, and_self, if_true, Discipline.read, hd]
      exact ⟨trivial, [], rfl, nofun, h.buf, h.cooked, h.cur⟩
  | cons l ls =>
    have hpos : 0 < l.length := by
      obtain ⟨b, -, rfl⟩ := h.lines l (by simp)
      simp
    have hcook : t.cooked = l.length + ls.flatten.length := by rw [h.cooked, flatten_cons, length_append]
    have hbuf : t.buf = l ++ (ls.flatten ++ d.cur) := by rw [h.buf, flatten_cons, append_assoc]
    have h0 : ttyReadable t ≠ 0 := by
      unfold ttyReadable
      rw [if_pos hcan]
      omega
    have hd : d.done = Piece.text l :: (ls.map Piece.text ++ List.replicate t.eof Piece.eof) := by rw [h.done]; rfl
    unfold ttyRead Discipline.read
    rw [if_neg h0, hd]
    by_cases hlen : len = 0
    · simp only [if_pos hlen]
      exact ⟨trivial, l :: ls, h⟩
    simp only [if_neg hlen]
    rw [h.readSize_eq hcan]
    constructor
    · rw [hbuf, take_append_of_le_length (min_le_left _ _)]
      rw [← take_take, take_of_length_le (length_take_le' _ _)]
    by_cases hlt : len < l.length
    · -- a part of the line stays
      refine ⟨l.drop len :: ls, ?_⟩
      rw [min_eq_right (le_of_lt hlt)]
      simp only [if_pos hlt]
      refine ⟨rfl, fun m hm => ?_, ?_, ?_, h.cur⟩
      · rcases mem_cons.1 hm with rfl | hm
        · obtain ⟨b, hb, rfl⟩ := h.lines l (by simp)
          have hle : len ≤ b.length := by
            simp only [length_append, length_singleton] at hlt
            omega
          exact ⟨b.drop len, fun hx => hb (mem_of_mem_drop hx), drop_append_of_le_length hle⟩
        · exact h.lines m (by simp [hm])
      · show t.buf.drop len = _
        rw [hbuf, drop_append_of_le_length (le_of_lt hlt), flatten_cons, append_assoc]
      · show t.cooked - len = _
        rw [hcook, flatten_cons, length_append, length_drop]
        omega
    · refine ⟨ls, ?_⟩
      rw [min_eq_left (by omega)]
      simp only [if_neg hlt]
      refine ⟨rfl, fun m hm => h.lines m (by simp [hm]), ?_, ?_, h.cur⟩
      · show t.buf.drop l.length = _
        rw [hbuf, drop_left']
        rfl
      show t.cooked - l.length = _
      rw [hcook]
      omega

end Holds

lemma receiveKey_termios {x : UInt8} (k : Key) : (receiveKey t x k).termios = t.termios := by
  cases k with
  | signal sig => exact ((ttyEcho_quiet x).trans (ttyOutput_quiet [newline])).termios
  | erase =>
    by_cases h : t.cooked < t.buf.length
    · exact (ttyErase_of_lt h).termios
    · exact congrArg Tty.termios (dif_neg h)
  | kill => exact (eraseAll_eq _).1
  | eof => rfl
  | char =>
    by_cases h : t.buf.length < ttyBuffer
    · have hq := ttyEcho_quiet (t := addChar t x h) x
      have hk : receiveKey t x .char = if x = newline ∨ ttyCanonical (ttyEcho (addChar t x h) x) = false then
          cook (ttyEcho (addChar t x h) x) else ttyEcho (addChar t x h) x := dif_pos h
      rw [hk]
      split <;> exact hq.termios
    · exact congrArg Tty.termios (dif_neg h)

lemma ttyRead_termios (len : Nat) : (ttyRead t len).2.termios = t.termios := by
  unfold ttyRead
  split <;> split <;> rfl

/-- One event: the same result, and the two still agree. -/
lemma Holds.exec {e : Event} (h : Holds t d ls) (hcan : ttyCanonical t = true) (hok : orderly t e = true) :
    (exec t e).1 = (d.exec t.termios e).1 ∧ (Terminal.exec t e).2.termios = t.termios ∧
      ∃ ls', Holds (Terminal.exec t e).2 (d.exec t.termios e).2 ls' := by
  cases e with
  | input c => exact ⟨rfl, receiveKey_termios _, h.receive hcan hok⟩
  | read len =>
    obtain ⟨h1, h2⟩ := h.read hcan len
    exact ⟨congrArg some h1, ttyRead_termios len, h2⟩

/-- In canonical mode the reads return what the line discipline gives, for every schedule of typed characters and reads
that is orderly. -/
theorem canonical_input (hcan : tm.lflag &&& icanon ≠ 0) {es : List Event}
    (hok : LTS.Meets (fun t e => (exec t e).2) (fun t e => orderly t e = true) (Tty.fresh tm) es) :
    results (Tty.fresh tm) es = Discipline.results tm .empty es := by
  have hrun : ∀ (es : List Event) (t : Tty) (d : Discipline) (ls : List Bytes), t.termios = tm → Holds t d ls →
      LTS.Meets (fun t e => (exec t e).2) (fun t e => orderly t e = true) t es →
        results t es = Discipline.results tm d es := by
    intro es
    induction es with
    | nil => exact fun _ _ _ _ _ _ => rfl
    | cons e es ih =>
      intro t d ls ht h hmeet
      have hc : ttyCanonical t = true := by
        unfold ttyCanonical
        rw [ht]
        simpa using hcan
      obtain ⟨h1, h2, ls', h3⟩ := h.exec hc hmeet.1
      rw [ht] at h1 h2 h3
      rw [results, Discipline.results, h1, ih _ _ ls' h2 h3 hmeet.2]
  exact hrun es _ _ [] rfl (Holds.fresh tm) hok

/-- `ab` newline, an end of file, and four reads. -/
def twoReads : List Event := [.input 0x61, .input 0x62, .input newline, .read 2, .input 0x04, .read 9, .read 9, .read 9]

theorem canonical_input_twoReads :
    results (Tty.fresh .default) twoReads = [some [0x61, 0x62], some [newline], some [], none] ∧
      results (Tty.fresh .default) twoReads = Discipline.results .default .empty twoReads :=
  ⟨by decide, canonical_input (by decide) ⟨rfl, rfl, rfl, rfl, rfl, rfl, rfl, rfl, trivial⟩⟩

/-- An end of file typed behind a character. -/
def eofInLine : List Event := [.input 0x61, .input 0x04, .read 9, .read 9]

/-- The end of file that has finished a line is read a second time, as the end of the input. -/
theorem eof_read_twice : results (Tty.fresh .default) eofInLine = [some [0x61], some []] ∧
    Discipline.results .default .empty eofInLine = [some [0x61], none] := by decide

end Hermes.L6.Terminal
