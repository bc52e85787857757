import OpenPiton.Lib.Gray
import OpenPiton.Lib.Machine
import Mathlib.Data.List.Induction
import Mathlib.Data.Nat.ModEq
import Mathlib.Logic.Function.Basic

namespace OpenPiton.Common

open Gray

variable {α : Type*} {asize : Nat}

/-- The registers of `async_fifo`: pointers in Gray code, each with its two copies in the other clock
domain. -/
structure AsyncFifo (asize : Nat) (α : Type*) where
  gWptr : BitVec asize
  gRptr : BitVec asize
  gRsync1 : BitVec asize
  gRsync2 : BitVec asize
  gWsync1 : BitVec asize
  gWsync2 : BitVec asize
  fifo : Nat → α

/-- The clocks that rise at a moment, and the inputs there. -/
structure Edges (α : Type*) where
  wclk : Bool
  rclk : Bool
  wreset : Bool
  rreset : Bool
  wval : Bool
  wdata : α
  ren : Bool

namespace AsyncFifo

variable (s : AsyncFifo asize α) (e : Edges α)

def bWptr : BitVec asize := binary s.gWptr

def bRptr : BitVec asize := binary s.gRptr

def gWptrNext : BitVec asize := gray (s.bWptr + BitVec.ofNat asize 1)

def gRptrNext : BitVec asize := gray (s.bRptr + BitVec.ofNat asize 1)

def wfull : Bool :=
  (s.gWptr.getLsbD (asize - 1) != s.gRsync2.getLsbD (asize - 1)) &&
    (s.gWptr.getLsbD (asize - 2) != s.gRsync2.getLsbD (asize - 2)) &&
    (s.gWptr.setWidth (asize - 2) == s.gRsync2.setWidth (asize - 2)) || (e.wreset || e.rreset)

def rempty : Bool := s.gWsync2 == s.gRptr || (e.wreset || e.rreset)

/-- The place of a pointer: `MEMSIZE` is `2 ^ (ASIZE - 1)`. -/
def place (b : BitVec asize) : Nat := b.toNat % 2 ^ (asize - 1)

def rdata : α := s.fifo (place s.bRptr)

def reads : Bool := e.rclk && !e.rreset && (e.ren && !s.rempty e)

def writes : Bool := e.wclk && !e.wreset && (e.wval && !s.wfull e)

def step : AsyncFifo asize α where
  gRptr := if e.rclk && e.rreset then 0 else if s.reads e then s.gRptrNext else s.gRptr
  gWsync1 := if e.rclk then s.gWptr else s.gWsync1
  gWsync2 := if e.rclk then s.gWsync1 else s.gWsync2
  gWptr := if e.wclk && e.wreset then 0 else if s.writes e then s.gWptrNext else s.gWptr
  fifo := if s.writes e then Function.update s.fifo (place s.bWptr) e.wdata else s.fifo
  gRsync1 := if e.wclk then s.gRptr else s.gRsync1
  gRsync2 := if e.wclk then s.gRsync1 else s.gRsync2

/-- The Gray code of a number of words. -/
def code (asize k : Nat) : BitVec asize := gray (BitVec.ofNat asize k)

theorem code_zero : code asize 0 = 0 := by
  simp [code, gray]

theorem gray_succ (k : Nat) : gray (binary (code asize k) + BitVec.ofNat asize 1) = code asize (k + 1) := by
  rw [code, binary_gray, code, BitVec.ofNat_add]

theorem place_code (k : Nat) : place (binary (code asize k)) = k % 2 ^ (asize - 1) := by
  rw [code, binary_gray, place, BitVec.toNat_ofNat]
  exact Nat.mod_mod_of_dvd _ (Nat.pow_dvd_pow 2 (Nat.sub_le asize 1))

theorem getLsbD_code {k i : Nat} (hi : i < asize) :
    (code asize k).getLsbD i = ((decide (i + 1 < asize) && k.testBit (i + 1)) ^^ k.testBit i) := by
  rw [code, getLsbD_gray, BitVec.getLsbD_ofNat, BitVec.getLsbD_ofNat, decide_eq_true hi, Bool.true_and]

theorem testBit_add_half {k i : Nat} (hi : i < asize) :
    (k + 2 ^ (asize - 1)).testBit i = (k.testBit i ^^ decide (i = asize - 1)) := by
  rw [Nat.add_comm]
  by_cases htop : i = asize - 1
  · subst htop
    rw [Nat.testBit_two_pow_add_eq]
    simp
  · rw [Nat.testBit_two_pow_add_gt (by omega)]
    simp [htop]

/-- With `MEMSIZE` words between the pointers the codes differ in their two upper bits only. -/
theorem wfull_code {k : Nat} (hn : 2 ≤ asize) (hw : s.gWptr = code asize (k + 2 ^ (asize - 1)))
    (hr : s.gRsync2 = code asize k) : s.wfull e = true := by
  have hbit : ∀ i < asize, s.gWptr.getLsbD i =
      (s.gRsync2.getLsbD i ^^ decide (i = asize - 1 ∨ i = asize - 2)) := by
    intro i hi
    rw [hw, hr, getLsbD_code hi, getLsbD_code hi, testBit_add_half hi]
    by_cases htop : i + 1 < asize
    · rw [testBit_add_half htop]
      have hne : i ≠ asize - 1 := by omega
      have hiff : i + 1 = asize - 1 ↔ i = asize - 2 := by omega
      cases k.testBit i <;> cases k.testBit (i + 1) <;> simp [htop, hne, hiff]
    · have hi' : i = asize - 1 := by omega
      rw [decide_eq_false htop, Bool.false_and, Bool.false_and, Bool.false_xor, Bool.false_xor]
      simp [hi']
  have hlow : s.gWptr.setWidth (asize - 2) = s.gRsync2.setWidth (asize - 2) := by
    ext i hi
    rw [← BitVec.getLsbD_eq_getElem, ← BitVec.getLsbD_eq_getElem, BitVec.getLsbD_setWidth, BitVec.getLsbD_setWidth,
      hbit i (by omega)]
    have hne : ¬ (i = asize - 1 ∨ i = asize - 2) := by omega
    simp [hne]
  rw [wfull, hbit _ (by omega), hbit (asize - 2) (by omega), hlow]
  simp

end AsyncFifo

/-- The queue between the two clock domains, with the words that went in and out. -/
structure AsyncQueue (asize : Nat) (α : Type*) where
  fifo : AsyncFifo asize α
  written : List α := []
  read : List α := []

namespace AsyncQueue

variable {s : AsyncQueue asize α} {e : Edges α} {r1 r2 w1 w2 : Nat}

def step (s : AsyncQueue asize α) (e : Edges α) : AsyncQueue asize α where
  fifo := s.fifo.step e
  written := if s.fifo.writes e then s.written ++ [e.wdata] else s.written
  read := if s.fifo.reads e then s.read ++ [s.fifo.rdata] else s.read

/-- Both resets are asserted. -/
def Held (e : Edges α) : Prop := e.wreset = true ∧ e.rreset = true

/-- Edges that clear both pointers, and behind them enough of both clocks for both synchronizers. -/
def Flushes (es : List (Edges α)) : Prop :=
  ∃ pre post, es = pre ++ post ∧ (∃ e ∈ pre, e.wclk = true) ∧ (∃ e ∈ pre, e.rclk = true) ∧
    2 ≤ post.countP Edges.wclk ∧ 2 ≤ post.countP Edges.rclk

/-- Any state in which both resets were held long enough. -/
def Init (s : AsyncQueue asize α) : Prop :=
  ∃ s₀ es, (∀ e ∈ es, Held e) ∧ Flushes es ∧ s = { fifo := Machine.run AsyncFifo.step s₀ es }

/-- The resets may still be asserted, one longer than the other, until a word is written. -/
def Resets (s : AsyncQueue asize α) (e : Edges α) : Prop := (e.wreset || e.rreset) = true → s.written = []

instance [DecidableEq α] : Decidable (Resets s e) := inferInstanceAs (Decidable (_ → _))

/-- The pointers stand for the words that went in and out, their copies for fewer. -/
structure Tracks (s : AsyncQueue asize α) (r2 r1 w2 w1 : Nat) : Prop where
  wptr : s.fifo.gWptr = AsyncFifo.code asize s.written.length
  rptr : s.fifo.gRptr = AsyncFifo.code asize s.read.length
  rsync1 : s.fifo.gRsync1 = AsyncFifo.code asize r1
  rsync2 : s.fifo.gRsync2 = AsyncFifo.code asize r2
  wsync1 : s.fifo.gWsync1 = AsyncFifo.code asize w1
  wsync2 : s.fifo.gWsync2 = AsyncFifo.code asize w2
  rsync_le : r2 ≤ r1 ∧ r1 ≤ s.read.length
  wsync_le : w2 ≤ w1 ∧ w1 ≤ s.written.length
  read_le : s.read.length ≤ w2
  written_le : s.written.length ≤ r2 + 2 ^ (asize - 1)

/-- The words that were not read are in their places. -/
structure Keeps (s : AsyncQueue asize α) : Prop where
  order : s.read <+: s.written
  get : ∀ k x, s.read.length ≤ k → s.written[k]? = some x → s.fifo.fifo (k % 2 ^ (asize - 1)) = x

namespace Tracks

variable (h : Tracks s r2 r1 w2 w1)

include h

theorem not_full (hn : 2 ≤ asize) (hw : s.fifo.writes e = true) : s.written.length < r2 + 2 ^ (asize - 1) := by
  refine Nat.lt_of_le_of_ne h.written_le fun heq => ?_
  have hfull := s.fifo.wfull_code e hn (heq ▸ h.wptr) h.rsync2
  simp [AsyncFifo.writes, hfull] at hw

theorem not_empty (hr : s.fifo.reads e = true) : s.read.length < w2 := by
  refine Nat.lt_of_le_of_ne h.read_le fun heq => ?_
  have hempty : s.fifo.rempty e = true := by
    rw [AsyncFifo.rempty, h.wsync2, h.rptr, heq]
    simp
  simp [AsyncFifo.reads, hempty] at hr

theorem gWptr_step (hreset : Resets s e) :
    (s.step e).fifo.gWptr = AsyncFifo.code asize (s.step e).written.length := by
  simp only [step, AsyncFifo.step]
  cases hc : e.wclk && e.wreset with
  | true =>
      have hw : e.wreset = true := by simp_all
      have hwrites : s.fifo.writes e = false := by simp [AsyncFifo.writes, hw]
      simp [hwrites, hreset (by simp [hw]), AsyncFifo.code_zero]
  | false =>
      cases hwrites : s.fifo.writes e with
      | true => simp [AsyncFifo.gWptrNext, AsyncFifo.bWptr, h.wptr, AsyncFifo.gray_succ]
      | false => simpa using h.wptr

theorem gRptr_step (hreset : Resets s e) :
    (s.step e).fifo.gRptr = AsyncFifo.code asize (s.step e).read.length := by
  simp only [step, AsyncFifo.step]
  cases hc : e.rclk && e.rreset with
  | true =>
      have hr : e.rreset = true := by simp_all
      have hreads : s.fifo.reads e = false := by simp [AsyncFifo.reads, hr]
      have hnone : s.read = [] := by
        have hle := h.read_le.trans (h.wsync_le.1.trans h.wsync_le.2)
        rw [hreset (by simp [hr])] at hle
        exact List.length_eq_zero_iff.mp (Nat.le_zero.mp hle)
      simp [hreads, hnone, AsyncFifo.code_zero]
  | false =>
      cases hreads : s.fifo.reads e with
      | true => simp [AsyncFifo.gRptrNext, AsyncFifo.bRptr, h.rptr, AsyncFifo.gray_succ]
      | false => simpa using h.rptr

/-- A copy takes the count of the register before it at the edges of its clock. -/
theorem step (hn : 2 ≤ asize) (hreset : Resets s e) :
    Tracks (s.step e) (if e.wclk then r1 else r2) (if e.wclk then s.read.length else r1)
      (if e.rclk then w1 else w2) (if e.rclk then s.written.length else w1) := by
  have hwrote : (s.step e).written.length = s.written.length + if s.fifo.writes e then 1 else 0 := by
    simp only [AsyncQueue.step]
    split <;> simp
  have hread : (s.step e).read.length = s.read.length + if s.fifo.reads e then 1 else 0 := by
    simp only [AsyncQueue.step]
    split <;> simp
  obtain ⟨hr21, hr1⟩ := h.rsync_le
  obtain ⟨hw21, hw1⟩ := h.wsync_le
  have hle := h.read_le
  have hle' := h.written_le
  refine ⟨h.gWptr_step hreset, h.gRptr_step hreset, ?_, ?_, ?_, ?_, ?_, ?_, ?_, ?_⟩
  · simp only [AsyncQueue.step, AsyncFifo.step]
    split
    · exact h.rptr
    · exact h.rsync1
  · simp only [AsyncQueue.step, AsyncFifo.step]
    split
    · exact h.rsync1
    · exact h.rsync2
  · simp only [AsyncQueue.step, AsyncFifo.step]
    split
    · exact h.wptr
    · exact h.wsync1
  · simp only [AsyncQueue.step, AsyncFifo.step]
    split
    · exact h.wsync1
    · exact h.wsync2
  · rw [hread]
    split <;> omega
  · rw [hwrote]
    split <;> omega
  · rw [hread]
    cases hr : s.fifo.reads e with
    | true =>
        have hlt := h.not_empty hr
        rw [if_pos rfl]
        split <;> omega
    | false =>
        rw [if_neg Bool.false_ne_true]
        split <;> omega
  · rw [hwrote]
    cases hw : s.fifo.writes e with
    | true =>
        have hlt := h.not_full hn hw
        rw [if_pos rfl]
        split <;> omega
    | false =>
        rw [if_neg Bool.false_ne_true]
        split <;> omega

end Tracks

theorem prefix_concat {l l' : List α} {x : α} (h : l <+: l') (hx : l'[l.length]? = some x) : l ++ [x] <+: l' := by
  obtain ⟨t, rfl⟩ := h
  cases t with
  | nil => simp at hx
  | cons y t =>
      have hxy : y = x := by simpa using hx
      exact ⟨t, by simp [hxy]⟩

/-- A word goes to a place that no unread word has, and what is read is the next word. -/
theorem Keeps.step (hk : Keeps s) (h : Tracks s r2 r1 w2 w1) (hn : 2 ≤ asize) : Keeps (s.step e) := by
  have hread : s.read.length ≤ s.written.length := hk.order.length_le
  have hpre : s.written <+: (s.step e).written := by
    simp only [AsyncQueue.step]
    split
    · exact List.prefix_append _ _
    · exact List.prefix_refl _
  constructor
  · cases hr : s.fifo.reads e with
    | false => simpa [AsyncQueue.step, hr] using hk.order.trans hpre
    | true =>
        have hlt : s.read.length < s.written.length :=
          Nat.lt_of_lt_of_le (h.not_empty hr) (h.wsync_le.1.trans h.wsync_le.2)
        have hdata : s.fifo.rdata = s.written[s.read.length] := by
          rw [AsyncFifo.rdata, AsyncFifo.bRptr, h.rptr, AsyncFifo.place_code]
          exact hk.get _ _ (Nat.le_refl _) (List.getElem?_eq_getElem hlt)
        have hnext : s.read ++ [s.fifo.rdata] <+: s.written :=
          prefix_concat hk.order (by rw [List.getElem?_eq_getElem hlt, hdata])
        simpa [AsyncQueue.step, hr] using hnext.trans hpre
  · intro k x hle hx
    have hle' : s.read.length ≤ k := by
      refine Nat.le_trans ?_ hle
      simp only [AsyncQueue.step]
      split <;> simp
    cases hw : s.fifo.writes e with
    | false =>
        simp only [AsyncQueue.step, AsyncFifo.step, hw, if_neg Bool.false_ne_true] at hx ⊢
        exact hk.get k x hle' hx
    | true =>
        have hfree := h.not_full hn hw
        have hr2 : r2 ≤ s.read.length := h.rsync_le.1.trans h.rsync_le.2
        simp only [AsyncQueue.step, AsyncFifo.step, hw, if_pos] at hx ⊢
        rw [AsyncFifo.bWptr, h.wptr, AsyncFifo.place_code]
        rcases Nat.lt_trichotomy k s.written.length with hlt | rfl | hgt
        · have hne : k % 2 ^ (asize - 1) ≠ s.written.length % 2 ^ (asize - 1) := fun heq => by
            have hdvd := (Nat.modEq_iff_dvd' hlt.le).mp heq
            have := Nat.le_of_dvd (by omega) hdvd
            omega
          rw [Function.update_of_ne hne]
          rw [List.getElem?_append_left hlt] at hx
          exact hk.get k x hle' hx
        · rw [Function.update_self]
          simpa using hx
        · rw [List.getElem?_eq_none (by simp; omega)] at hx
          cases hx

theorem held_step {s : AsyncFifo asize α} (he : Held e) :
    (s.step e).gWptr = (if e.wclk then 0 else s.gWptr) ∧ (s.step e).gRptr = if e.rclk then 0 else s.gRptr := by
  simp [AsyncFifo.step, AsyncFifo.reads, AsyncFifo.writes, he.1, he.2]

theorem held_flushes {s : AsyncFifo asize α} {es : List (Edges α)} (hes : ∀ e ∈ es, Held e) (hw : s.gWptr = 0)
    (hr : s.gRptr = 0) :
    (Machine.run AsyncFifo.step s es).gWptr = 0 ∧ (Machine.run AsyncFifo.step s es).gRptr = 0 ∧
      (1 ≤ es.countP Edges.rclk → (Machine.run AsyncFifo.step s es).gWsync1 = 0) ∧
      (2 ≤ es.countP Edges.rclk → (Machine.run AsyncFifo.step s es).gWsync2 = 0) ∧
      (1 ≤ es.countP Edges.wclk → (Machine.run AsyncFifo.step s es).gRsync1 = 0) ∧
      (2 ≤ es.countP Edges.wclk → (Machine.run AsyncFifo.step s es).gRsync2 = 0) := by
  induction es using List.reverseRecOn with
  | nil => simp [Machine.run, hw, hr]
  | append_singleton es e ih =>
      obtain ⟨hw', hr', hw1, hw2, hr1, hr2⟩ := ih fun e' he' => hes e' (List.mem_append_left _ he')
      obtain ⟨hwp, hrp⟩ := held_step (s := Machine.run AsyncFifo.step s es)
        (hes e (List.mem_append_right _ (List.mem_singleton_self e)))
      rw [Machine.run, List.foldl_append, List.foldl_cons, List.foldl_nil]
      rw [Machine.run] at hw' hr' hw1 hw2 hr1 hr2 hwp hrp
      refine ⟨?_, ?_, ?_⟩
      · rw [hwp, hw', ite_self]
      · rw [hrp, hr', ite_self]
      · simp only [AsyncFifo.step, List.countP_append, List.countP_singleton]
        -- how many edges came before is all that matters of them
        generalize es.countP Edges.rclk = rs at hw1 hw2 ⊢
        generalize es.countP Edges.wclk = ws at hr1 hr2 ⊢
        generalize List.foldl AsyncFifo.step s es = t at *
        refine ⟨?_, ?_, ?_, ?_⟩
        · cases e.rclk
          · simpa using hw1
          · simp [hw']
        · cases e.rclk
          · simpa using hw2
          · simpa using hw1
        · cases e.wclk
          · simpa using hr1
          · simp [hr']
        · cases e.wclk
          · simpa using hr2
          · simpa using hr1

theorem held_clears {s : AsyncFifo asize α} {es : List (Edges α)} (hes : ∀ e ∈ es, Held e) :
    ((∃ e ∈ es, e.wclk = true) → (Machine.run AsyncFifo.step s es).gWptr = 0) ∧
      ((∃ e ∈ es, e.rclk = true) → (Machine.run AsyncFifo.step s es).gRptr = 0) := by
  induction es using List.reverseRecOn with
  | nil => simp
  | append_singleton es e ih =>
      obtain ⟨hw, hr⟩ := ih fun e' he' => hes e' (List.mem_append_left _ he')
      obtain ⟨hwp, hrp⟩ := held_step (s := Machine.run AsyncFifo.step s es)
        (hes e (List.mem_append_right _ (List.mem_singleton_self e)))
      rw [Machine.run, List.foldl_append, List.foldl_cons, List.foldl_nil]
      rw [Machine.run] at hw hr hwp hrp
      constructor
      · rintro ⟨e', he', hclk⟩
        rw [hwp]
        split
        · rfl
        · rcases List.mem_append.mp he' with he' | he'
          · exact hw ⟨e', he', hclk⟩
          · rw [List.mem_singleton.mp he'] at hclk
            contradiction
      · rintro ⟨e', he', hclk⟩
        rw [hrp]
        split
        · rfl
        · rcases List.mem_append.mp he' with he' | he'
          · exact hr ⟨e', he', hclk⟩
          · rw [List.mem_singleton.mp he'] at hclk
            contradiction

theorem Init.tracks (h : Init s) : Tracks s 0 0 0 0 ∧ Keeps s := by
  obtain ⟨s₀, es, hes, ⟨pre, post, rfl, hwclk, hrclk, hwn, hrn⟩, rfl⟩ := h
  have hclear := held_clears (s := s₀) fun e he => hes e (List.mem_append_left post he)
  obtain ⟨hw, hr, hw1, hw2, hr1, hr2⟩ :=
    held_flushes (fun e he => hes e (List.mem_append_right pre he)) (hclear.1 hwclk) (hclear.2 hrclk)
  have hrun : Machine.run AsyncFifo.step s₀ (pre ++ post) =
      Machine.run AsyncFifo.step (Machine.run AsyncFifo.step s₀ pre) post := List.foldl_append
  rw [hrun]
  refine ⟨⟨?_, ?_, ?_, ?_, ?_, ?_, by simp, by simp, by simp, by simp⟩, ⟨List.prefix_refl _, by simp⟩⟩
  · exact hw.trans AsyncFifo.code_zero.symm
  · exact hr.trans AsyncFifo.code_zero.symm
  · exact (hr1 (by omega)).trans AsyncFifo.code_zero.symm
  · exact (hr2 hwn).trans AsyncFifo.code_zero.symm
  · exact (hw1 (by omega)).trans AsyncFifo.code_zero.symm
  · exact (hw2 hrn).trans AsyncFifo.code_zero.symm

theorem bounded_queue (hn : 3 ≤ asize) (h : Machine.Reaches Init step Resets s) :
    s.read <+: s.written ∧ s.written.length ≤ s.read.length + 2 ^ (asize - 1) ∧
      (∀ k x, s.read.length ≤ k → s.written[k]? = some x → s.fifo.fifo (k % 2 ^ (asize - 1)) = x) ∧
      ∃ r2 r1 w2 w1, Tracks s r2 r1 w2 w1 := by
  have hinv : (∃ r2 r1 w2 w1, Tracks s r2 r1 w2 w1) ∧ Keeps s := by
    refine h.invariant (P := fun s => (∃ r2 r1 w2 w1, Tracks s r2 r1 w2 w1) ∧ Keeps s) ?_ ?_
    · intro s hs
      exact ⟨⟨0, 0, 0, 0, hs.tracks.1⟩, hs.tracks.2⟩
    · rintro s e ⟨⟨r2, r1, w2, w1, ht⟩, hk⟩ hreset
      exact ⟨⟨_, _, _, _, ht.step (by omega) hreset⟩, hk.step ht (by omega)⟩
  obtain ⟨⟨r2, r1, w2, w1, ht⟩, hk⟩ := hinv
  have hbound : s.written.length ≤ s.read.length + 2 ^ (asize - 1) := by
    have := ht.written_le
    have := ht.rsync_le
    omega
  exact ⟨hk.order, hbound, hk.get, r2, r1, w2, w1, ht⟩

/-- Both clocks with both resets, a rising write clock and a rising read clock. -/
def held : Edges Nat := ⟨true, true, true, true, false, 0, false⟩

def put (x : Nat) : Edges Nat := ⟨true, false, false, false, true, x, false⟩

def get : Edges Nat := ⟨false, true, false, false, false, 0, true⟩

def queue : AsyncQueue 3 Nat where
  fifo := Machine.run AsyncFifo.step ⟨5, 3, 1, 2, 6, 4, fun _ => 7⟩ (List.replicate 3 held)

theorem init_queue : Init queue :=
  ⟨_, List.replicate 3 held, fun e he => by rw [List.eq_of_mem_replicate he]; exact ⟨rfl, rfl⟩,
    ⟨[held], [held, held], rfl, ⟨held, by simp, rfl⟩, ⟨held, by simp, rfl⟩, by decide, by decide⟩, rfl⟩

/-- Of five words four fit, and the third edge of the read clock is the first to see one. -/
theorem bounded_queue_four :
    let s := Machine.run step queue ((List.range 5).map put ++ List.replicate 4 get)
    (s.written = [0, 1, 2, 3] ∧ s.read = [0, 1]) ∧ s.read <+: s.written ∧
      s.written.length ≤ s.read.length + 2 ^ (3 - 1) ∧
      (∀ k x, s.read.length ≤ k → s.written[k]? = some x → s.fifo.fifo (k % 2 ^ (3 - 1)) = x) ∧
      ∃ r2 r1 w2 w1, Tracks s r2 r1 w2 w1 :=
  ⟨by decide +kernel, bounded_queue (by decide) (.run (.start init_queue) (by decide +kernel))⟩

end AsyncQueue

end OpenPiton.Common
