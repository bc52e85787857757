import OpenPiton.Lib.Ring
import OpenPiton.L15.Defs

namespace OpenPiton.L15

/-- A write request of the pipeline to `noc1buffer`. -/
structure Noc1Req where
  reqtype : Noc1Reqtype
  mshrType : MshrType
  mshrIndex : Nat
  address : Nat
  nonCacheable : Bool
  size : MsgSize
  data0 : Word
  data1 : Word

/-- A slot of the command buffer. -/
structure Noc1Command where
  reqtype : Noc1Reqtype := .none
  mshrType : MshrType := .cmo
  mshrIndex : Nat := 0
  address : Nat := 0
  nonCacheable : Bool := false
  size : MsgSize := .b0
  dataIndex : Nat := 0
  deriving DecidableEq, Repr

def noc1BufferNumSlots : Nat := 8

def noc1BufferNumDataSlots : Nat := 2

/-- The words of the data buffer a request takes: two for a CAS, one for the other requests with
data. The same table gives `noc1buffer_l15_req_data_sent`. -/
def Noc1Reqtype.dataWords : Noc1Reqtype → Nat
  | .casRequest => 2
  | .swapRequest | .amoRequest _ | .interruptFwd | .writethroughRequest => 1
  | _ => 0

structure Noc1Buffer where
  command : Nat → Noc1Command := fun _ => {}
  commandVal : Nat → Bool := fun _ => false
  data : Nat → Word := fun _ => 0
  commandWrindex : Nat := 0
  commandRdindex : Nat := 0
  dataWrindex : Nat := 0

namespace Noc1Buffer

/-- `noc1buffer_noc1encoder_req_val`, but for the homeid lookup. -/
def reqVal (b : Noc1Buffer) : Bool := b.commandVal b.commandRdindex

def head (b : Noc1Buffer) : Noc1Command := b.command b.commandRdindex

def writeData (b : Noc1Buffer) (r : Noc1Req) : Nat → Word :=
  match r.reqtype.dataWords with
  | 0 => b.data
  | 1 => Function.update b.data b.dataWrindex r.data0
  | _ => Function.update (Function.update b.data b.dataWrindex r.data0)
      ((b.dataWrindex + 1) % noc1BufferNumDataSlots) r.data1

/-- One clock of the buffer: a request is written, the head is sent. A write to the slot being
sent wins. -/
def step (b : Noc1Buffer) (req : Option Noc1Req) (sent : Bool) : Noc1Buffer :=
  let b' : Noc1Buffer :=
    if sent then
      { b with
        commandVal := Function.update b.commandVal b.commandRdindex false
        commandRdindex := (b.commandRdindex + 1) % noc1BufferNumSlots }
    else b
  match req with
  | none => b'
  | some r =>
      { b' with
        command := Function.update b.command b.commandWrindex
          ⟨r.reqtype, r.mshrType, r.mshrIndex, r.address, r.nonCacheable, r.size, b.dataWrindex⟩
        commandVal := Function.update b'.commandVal b.commandWrindex true
        data := writeData b r
        commandWrindex := (b.commandWrindex + 1) % noc1BufferNumSlots
        dataWrindex := (b.dataWrindex + r.reqtype.dataWords) % noc1BufferNumDataSlots }

/-- The commands held. -/
def held (b : Noc1Buffer) : Nat :=
  ∑ k ∈ Finset.range noc1BufferNumSlots, if b.commandVal k then 1 else 0

/-- The data words of the commands held. -/
def heldWords (b : Noc1Buffer) : Nat :=
  ∑ k ∈ Finset.range noc1BufferNumSlots, if b.commandVal k then (b.command k).reqtype.dataWords else 0

/-- The slot a request is written to. -/
def commandOf (b : Noc1Buffer) (r : Noc1Req) : Noc1Command :=
  ⟨r.reqtype, r.mshrType, r.mshrIndex, r.address, r.nonCacheable, r.size, b.dataWrindex⟩

/-- The buffer holds the queue `l`, its data words packed behind each other in the data buffer. -/
structure Queue (b : Noc1Buffer) (l : List Noc1Command) : Prop where
  ring : Ring.Holds noc1BufferNumSlots b.command b.commandVal b.commandRdindex b.commandWrindex l
  packed : ∃ start, Ring.Packed noc1BufferNumDataSlots Noc1Command.dataIndex
    (fun c => c.reqtype.dataWords) start l b.dataWrindex

def queueWords (l : List Noc1Command) : Nat := (l.map fun c => c.reqtype.dataWords).sum

@[simp] theorem queueWords_nil : queueWords [] = 0 := rfl

@[simp] theorem queueWords_cons (c : Noc1Command) (l : List Noc1Command) :
    queueWords (c :: l) = c.reqtype.dataWords + queueWords l := by simp [queueWords]

@[simp] theorem queueWords_append (l m : List Noc1Command) : queueWords (l ++ m) = queueWords l + queueWords m := by
  simp [queueWords]

namespace Queue

variable {b : Noc1Buffer} {l : List Noc1Command}

theorem init : Queue {} [] := ⟨Ring.Holds.empty (by decide), 0, rfl⟩

theorem held_eq (h : Queue b l) : b.held = l.length := h.ring.length_val

theorem heldWords_eq (h : Queue b l) : b.heldWords = queueWords l :=
  h.ring.sum_val fun c => c.reqtype.dataWords

theorem reqVal_iff (h : Queue b l) : b.reqVal = true ↔ l ≠ [] := h.ring.val_rd

theorem writeData_of_held (h : Queue b l) {r : Noc1Req}
    (hw : queueWords l + r.reqtype.dataWords ≤ noc1BufferNumDataSlots) {c : Noc1Command} (hc : c ∈ l) {j : Nat}
    (hj : j < c.reqtype.dataWords) :
    b.writeData r ((c.dataIndex + j) % noc1BufferNumDataSlots) =
      b.data ((c.dataIndex + j) % noc1BufferNumDataSlots) := by
  obtain ⟨start, hp⟩ := h.packed
  have hstop : b.dataWrindex % noc1BufferNumDataSlots = b.dataWrindex := by
    rw [hp.stop_eq, Nat.mod_mod]
  have h0 : 0 < r.reqtype.dataWords →
      (c.dataIndex + j) % noc1BufferNumDataSlots ≠ b.dataWrindex := fun hr => by
    have := hp.fresh hw hc hj hr
    rwa [Nat.add_zero, hstop] at this
  have h1 : 1 < r.reqtype.dataWords →
      (c.dataIndex + j) % noc1BufferNumDataSlots ≠ (b.dataWrindex + 1) % noc1BufferNumDataSlots :=
    fun hr => hp.fresh hw hc hj hr
  rcases hd : r.reqtype.dataWords with _ | _ | n
  · simp only [writeData, hd]
  · simp only [writeData, hd]
    rw [Function.update_of_ne (h0 (by omega))]
  · simp only [writeData, hd]
    rw [Function.update_of_ne (h1 (by omega)), Function.update_of_ne (h0 (by omega))]

theorem sent (h : Queue b l) {c : Noc1Command} {l' : List Noc1Command} (hl : l = c :: l') :
    Queue (b.step none true) l' := by
  subst hl
  obtain ⟨start, hp⟩ := h.packed
  exact ⟨h.ring.pop, _, hp.2⟩

theorem write (h : Queue b l) (hl : l.length < noc1BufferNumSlots) (r : Noc1Req) :
    Queue (b.step (some r) false) (l ++ [b.commandOf r]) := by
  obtain ⟨start, hp⟩ := h.packed
  exact ⟨h.ring.push hl _, start, hp.push rfl⟩

end Queue

theorem step_write_sent (b : Noc1Buffer) (r : Noc1Req) :
    b.step (some r) true = (b.step none true).step (some r) false := rfl

/-- The queue after one clock. -/
def queueNext (b : Noc1Buffer) (l : List Noc1Command) (req : Option Noc1Req) (sent : Bool) : List Noc1Command :=
  (if sent then l.tail else l) ++ (req.map b.commandOf).toList

theorem sum_queueNext {b : Noc1Buffer} {l : List Noc1Command} (h : Queue b l) {req : Option Noc1Req} {sent : Bool}
    (hs : sent = true → l ≠ []) (f : Noc1Command → Nat) :
    ((queueNext b l req sent).map f).sum + (if sent then f b.head else 0) =
      (l.map f).sum + (req.map fun r => f (b.commandOf r)).getD 0 := by
  have hreq : (((req.map b.commandOf).toList).map f).sum = (req.map fun r => f (b.commandOf r)).getD 0 := by
    cases req <;> simp
  rw [queueNext, List.map_append, List.sum_append, hreq]
  cases sent with
  | false => simp
  | true =>
      obtain ⟨c, l', rfl⟩ := List.exists_cons_of_ne_nil (hs rfl)
      have hh : b.head = c := h.ring.head
      simp only [if_true, List.tail_cons, hh, List.map_cons, List.sum_cons]
      omega

theorem Queue.step {b : Noc1Buffer} {l : List Noc1Command} (h : Queue b l) {req : Option Noc1Req} {sent : Bool}
    (hs : sent = true → l ≠ []) (hr : req.isSome = true → l.length < noc1BufferNumSlots) :
    Queue (b.step req sent) (queueNext b l req sent) := by
  cases sent with
  | false =>
      cases req with
      | none => simpa [queueNext, Noc1Buffer.step] using h
      | some r => exact h.write (hr rfl) r
  | true =>
      obtain ⟨c, l', rfl⟩ := List.exists_cons_of_ne_nil (hs rfl)
      have hq := h.sent rfl
      cases req with
      | none => simpa [queueNext] using hq
      | some r =>
          rw [step_write_sent]
          have hlen := hr rfl
          simp only [List.length_cons] at hlen
          exact hq.write (by omega) r

end Noc1Buffer

end OpenPiton.L15
