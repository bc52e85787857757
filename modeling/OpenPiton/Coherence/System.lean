import OpenPiton.Coherence.Tile

namespace OpenPiton.Coherence

open L2 (Block Request Noc2 Noc3 CacheSet SetCfg ToMem MemAck Out)

/-- The tiles, the set of the L2 that keeps their lines, the memory behind it and the messages under way. The
messages from one party to another stay in order. -/
structure System (n : Nat) where
  tile : Fin n → Tile
  noc1 : Fin n → List (Request n)
  noc2 : Fin n → List Noc2
  noc3 : Fin n → List Noc3
  l2 : CacheSet n
  toMem : List ToMem
  fromMem : List MemAck
  memory : Addr → Block

/-- What can happen next: a tile carries out a request of its core, evicts a line, drops an instruction line or
takes a message; the L2 takes a request or replays one, tries a guard again, takes an acknowledgement or a
write-back, or the answer of the memory; the memory takes a message. -/
inductive Event (n : Nat)
  | request (a : Fin n) (r : Pcx)
  | evict (a : Fin n) (addr : Addr)
  | dropInstr (a : Fin n) (addr : Addr)
  | receive (a : Fin n)
  | accept (a : Fin n) (victim : Nat) (recycle : Bool)
  | replay (victim : Nat) (recycle : Bool)
  | retry
  | answer (a : Fin n)
  | fill
  | memory

namespace System

variable {n : Nat} (cfg : SetCfg n) (s : System n)

/-- A tile after a step of its own, with its messages behind the others. -/
def tileStep (a : Fin n) (t : Tile) (noc1 : List (Request n)) (noc3 : List Noc3) : System n :=
  { s with
    tile := Function.update s.tile a t
    noc1 := Function.update s.noc1 a (s.noc1 a ++ noc1)
    noc3 := Function.update s.noc3 a (s.noc3 a ++ noc3) }

/-- The messages to a tile. -/
def sent (out : Out) (a : Fin n) : List Noc2 := out.tiles.filterMap fun m => if m.1 = a.val then some m.2 else none

/-- The L2 after a pass, its messages behind the others. -/
def l2Step (h : CacheSet n) (out : Out) : System n :=
  { s with l2 := h, noc2 := fun a => s.noc2 a ++ sent out a, toMem := s.toMem ++ out.mem }

/-- The requests of the cores in this model: those to memory, without the flushes. -/
def allowed : L15.Reqtype → Bool
  | .load | .loadNc | .store | .writethrough | .ifill | .amoLr | .amoSc | .cas | .swpLoadstub | .amo _ | .cmo _ => true
  | _ => false

def request (a : Fin n) (r : Pcx) : Option (System n) :=
  if allowed r.reqtype then ((s.tile a).request a r).map fun p => s.tileStep a p.1 p.2.1 p.2.2 else none

def evict (a : Fin n) (addr : Addr) : Option (System n) :=
  let p := (s.tile a).evict a addr
  some (s.tileStep a p.1 p.2.1 p.2.2)

def dropInstr (a : Fin n) (addr : Addr) : Option (System n) := some (s.tileStep a ((s.tile a).dropInstr addr) [] [])

def receive (a : Fin n) : Option (System n) :=
  match s.noc2 a with
  | [] => none
  | m :: ms =>
      let p := (s.tile a).receive m
      some ({ s with noc2 := Function.update s.noc2 a ms }.tileStep a p.1 [] p.2)

/-- A request enters pipeline 1 when the set has no entry in the MSHR file. Between the phases of an atomic its
message is still before the others. -/
def accept (a : Fin n) (victim : Nat) (recycle : Bool) : Option (System n) :=
  match s.noc1 a with
  | [] => none
  | m :: ms =>
      if s.l2.mshr.isNone ∧ victim < cfg.ways ∧ s.l2.atomic.all (· == a) then
        (s.l2.accept cfg m victim recycle).map fun r =>
          { s.l2Step r.1 r.2.1 with noc1 := if r.2.2 then Function.update s.noc1 a ms else s.noc1 }
      else none

def replay (victim : Nat) (recycle : Bool) : Option (System n) :=
  s.l2.mshr.bind fun e =>
    if e.pending ∧ victim < cfg.ways then (s.l2.replay cfg e victim recycle).map fun r => s.l2Step r.1 r.2 else none

def retry : Option (System n) := s.l2.mshr.bind fun e => (s.l2.retry e).map fun h => { s with l2 := h }

def answer (a : Fin n) : Option (System n) :=
  match s.noc3 a with
  | [] => none
  | m :: ms => (s.l2.answer cfg m).map fun h => { s with l2 := h, noc3 := Function.update s.noc3 a ms }

/-- The answer of the memory names the entry that asked for it. -/
def fill : Option (System n) :=
  match s.fromMem with
  | [] => none
  | m :: ms => s.l2.mshr.map fun e => { s with l2 := s.l2.fill e m, fromMem := ms }

def memoryNext : Option (System n) :=
  match s.toMem with
  | [] => none
  | .load tag :: ms => some { s with toMem := ms, fromMem := s.fromMem ++ [.load fun k => s.memory (tag, k)] }
  | .store tag data :: ms =>
      some { s with toMem := ms, memory := fun a => if a.1 = tag then data a.2 else s.memory a }
  | .ncStore tag subline merge :: ms =>
      some
        { s with
          toMem := ms, fromMem := s.fromMem ++ [.ncStore]
          memory := Function.update s.memory (tag, subline) (merge (s.memory (tag, subline))) }

def next : Event n → Option (System n)
  | .request a r => s.request a r
  | .evict a addr => s.evict a addr
  | .dropInstr a addr => s.dropInstr a addr
  | .receive a => s.receive a
  | .accept a victim recycle => s.accept cfg a victim recycle
  | .replay victim recycle => s.replay cfg victim recycle
  | .retry => s.retry
  | .answer a => s.answer cfg a
  | .fill => s.fill
  | .memory => s.memoryNext

/-- Empty caches and nothing under way. -/
structure Init (s : System n) : Prop where
  copy : ∀ a addr, ((s.tile a).copy addr).mesi = .i
  lrsc : ∀ a addr, ((s.tile a).copy addr).lrsc = false
  instr : ∀ a addr, (s.tile a).instr addr = none
  mshr : ∀ a addr, (s.tile a).mshr addr = none
  noc1 : ∀ a, s.noc1 a = []
  noc2 : ∀ a, s.noc2 a = []
  noc3 : ∀ a, s.noc3 a = []
  mesi : ∀ way, (s.l2.lines.line way).mesi = .i
  vd : ∀ way, (s.l2.lines.line way).vd = .inval
  entry : s.l2.mshr = none
  atomic : s.l2.atomic = none
  toMem : s.toMem = []
  fromMem : s.fromMem = []

/-- The states that the events lead to. -/
inductive Reachable : System n → Prop
  | init {s : System n} : s.Init → Reachable s
  | step {s s' : System n} {e : Event n} : Reachable s → s.next cfg e = some s' → Reachable s'

end System

end OpenPiton.Coherence
