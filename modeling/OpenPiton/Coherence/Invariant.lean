import OpenPiton.Coherence.Lines
import OpenPiton.L2.Passes
import Mathlib.Data.Fintype.Card

namespace OpenPiton.Coherence

open L2 (Block Request Noc2 Noc3 MsgType CacheType FwdType CacheSet SetCfg Entry ToMem MemAck)
open L15 (Mesi MshrType)

variable {n : Nat}

/-- What the system holds for one tile: its requests that pipeline 1 has yet to carry out, and the messages
of the other networks. -/
structure View (n : Nat) where
  tile : Tile
  queue : List (Request n)
  noc2 : List Noc2
  noc3 : List Noc3

namespace View

variable (x : View n) (a : Addr)

def line : TileLine n where
  copy := x.tile.copy a
  mshr := x.tile.mshr a
  queue := x.queue.filter fun q => q.asks a || q.guards a
  answers := x.noc2.filter (·.answers a)
  backs := x.noc3.filter (·.isBack a)

/-- The processor has instructions of the line, or will when it has its messages. -/
def Fetches : Prop := (x.tile.instr a).isSome = true ∨ ∃ m ∈ x.noc2, m.givesInstr a = true

/-- A write-back is under way. -/
def Backs : Prop := (x.line a).backs ≠ []

/-- Another view has no more of the line, but perhaps a write-back of what was written. -/
structure Shrinks (x' : View n) : Prop where
  reads : (x'.line a).Reads → (x.line a).Reads
  writes : (x'.line a).Writes → (x.line a).Writes
  fetches : x'.Fetches a → x.Fetches a
  backs : x'.Backs a → x.Backs a ∨ (x.line a).Writes

end View

/-- What the tiles send, and what it is in pipeline 1. -/
structure Typed (t : Fin n) (q : Request n) : Prop where
  src : q.src = t
  data : q.type ≠ .load → q.cacheType = .data
  instr : q.cacheType = .ins → q.mshrType = .ifill
  cmo : ∀ op, q.type = .rvcmo op → q.mshrType = .cmo

structure Local (t : Fin n) (x : View n) : Prop where
  line : ∀ a, (x.line a).Ok
  typed : ∀ q ∈ x.queue, Typed t q

/-! ## The directory -/

/-- No tile has anything of the line. -/
def Gone (v : Fin n → View n) (tag : Nat) : Prop :=
  ∀ t k, ¬((v t).line (tag, k)).Reads ∧ ¬(v t).Fetches (tag, k) ∧ ¬(v t).Backs (tag, k)

/-- The tiles have of a line what its state and its directory allow. -/
def LineOk (v : Fin n → View n) (tag : Nat) (l : L2.Line) (dir : Fin n → Bool) : Prop :=
  match l.mesi with
  | .i => Gone v tag
  | .s => ∀ t k, ¬((v t).line (tag, k)).Writes ∧ ¬(v t).Backs (tag, k) ∧
      (((v t).line (tag, k)).Reads → dir t = true ∧ l.di = .data) ∧
      ((v t).Fetches (tag, k) → dir t = true ∧ l.di = .ins)
  | .e => l.di = .data ∧ l.subline ≠ 0 ∧ ∃ o : Fin n, l.owner = o.val ∧ ∀ t k, ¬(v t).Fetches (tag, k) ∧
      (((v t).line (tag, k)).Reads ∨ (v t).Backs (tag, k) → t = o ∧ l.subline.getLsbD k.toNat = true)
  | .b => False

structure Directory (cfg : SetCfg n) (v : Fin n → View n) (h : CacheSet n) : Prop where
  unique : ∀ way < cfg.ways, ∀ way' < cfg.ways, h.Valid way → h.Valid way' → h.lines.tag way = h.lines.tag way' → way = way'
  invalid : ∀ way, ¬h.Valid way → (h.lines.line way).mesi = .i
  broadcast : ∀ way, (h.lines.line way).mesi ≠ .b
  line : ∀ way < cfg.ways, h.Valid way → LineOk v (h.lines.tag way) (h.lines.line way) (h.dir way)
  absent : ∀ tag, CacheSet.Absent cfg h tag → Gone v tag

/-! ## Forwards -/

/-- The forwards that the entry of the MSHR file waits for, and the tiles that have yet to acknowledge. -/
structure Phase (n : Nat) where
  type : FwdType
  tiles : Finset (Fin n)

namespace View

variable (x : View n)

def Still : Prop := (∀ m ∈ x.noc2, m.isForward = false) ∧ ∀ m ∈ x.noc3, m.isAck = false

/-- The forward is the last message to the tile, and reaches all that the tile has of the line. -/
def Sent (type : FwdType) (tag : Nat) (di : CacheType) : Prop :=
  (∃ ms v, x.noc2 = ms ++ [.forward type tag v di] ∧ (∀ m ∈ ms, m.isForward = false) ∧
    if type = .inv then v = BitVec.allOnes 4
    else di = .data ∧ v ≠ 0 ∧ ∀ k, (x.line (tag, k)).Reads → v.getLsbD k.toNat = true) ∧
    ∀ m ∈ x.noc3, m.isAck = false

/-- The tile has acknowledged the forward and given the line up: nothing of it comes after the last
acknowledgement. -/
def Acked (type : FwdType) (tag : Nat) : Prop :=
  (∀ m ∈ x.noc2, m.isForward = false) ∧
    (∃ ms k d ms', x.noc3 = ms ++ .fwdAck type k true d :: ms' ∧
      (∀ m ∈ ms, m.isAck = true → ∃ k d, m = .fwdAck type k false d) ∧
      ∀ m ∈ ms', m.isAck = false ∧ ∀ k, m.isBack (tag, k) = false) ∧
    ∀ k, (if type = .load then ¬(x.line (tag, k)).Writes else ¬(x.line (tag, k)).Reads) ∧ ¬x.Fetches (tag, k)

/-- A tile that the forward is for. -/
def Due (type : FwdType) (tag : Nat) (di : CacheType) : Prop := x.Sent type tag di ∨ x.Acked type tag

end View

structure Forwarding (cfg : SetCfg n) (v : Fin n → View n) (h : CacheSet n) (e : Entry n) (p : Phase n) : Prop where
  waits : e.pending = false
  notGuard : e.req.type ≠ .wbguard
  way : e.way < cfg.ways
  valid : h.Valid e.way
  inv : p.type = .inv → (h.lines.line e.way).mesi = .s ∧
    (h.lines.line e.way).owner = p.tiles.card % 2 ^ cfg.ownerBits ∧
    ∀ t ∉ p.tiles, ∀ k, ¬((v t).line (h.lines.tag e.way, k)).Reads ∧ ¬(v t).Fetches (h.lines.tag e.way, k)
  owner : p.type ≠ .inv → ∃ o : Fin n, p.tiles = {o} ∧
    ((h.lines.line e.way).mesi = .e ∧ (h.lines.line e.way).owner = o.val ∨ (h.lines.line e.way).mesi = .i)
  due : ∀ t ∈ p.tiles, (v t).Due p.type (h.lines.tag e.way) (h.lines.line e.way).di
  still : ∀ t ∉ p.tiles, (v t).Still

/-! ## The memory -/

def ToMem.asks : ToMem → Bool
  | .store .. => false
  | _ => true

/-- The answers of the memory that are awaited. -/
def awaited (toMem : List ToMem) (fromMem : List MemAck) : Nat := toMem.countP ToMem.asks + fromMem.length

/-- The memory is asked for the entry; a line that comes finds its way free. -/
structure Fetching (cfg : SetCfg n) (h : CacheSet n) (toMem : List ToMem) (fromMem : List MemAck) (e : Entry n) :
    Prop where
  one : awaited toMem fromMem = 1
  waits : e.pending = false
  notGuard : e.req.type ≠ .wbguard
  line : (∃ tag, .load tag ∈ toMem) ∨ (∃ data, .load data ∈ fromMem) →
    e.way < cfg.ways ∧ ¬h.Valid e.way ∧ CacheSet.Absent cfg h e.req.tag

/-- The invariant, over what the system holds for each tile, the set of the L2 and the messages of the memory. -/
structure Safe (cfg : SetCfg n) (v : Fin n → View n) (h : CacheSet n) (toMem : List ToMem) (fromMem : List MemAck) :
    Prop where
  tile : ∀ t, Local t (v t)
  directory : Directory cfg v h
  entry : ∀ e, h.mshr = some e → e.req.type.inPipe = true ∧ ∃ qs, (v e.req.src).queue = e.req :: qs
  phase : (∀ t, (v t).Still) ∨ ∃ e p, h.mshr = some e ∧ Forwarding cfg v h e p
  memory : 0 < awaited toMem fromMem → (∀ t, (v t).Still) ∧ ∃ e, h.mshr = some e ∧ Fetching cfg h toMem fromMem e

/-! ## Lemmas -/

section Frame

variable {cfg : SetCfg n} {v v' : Fin n → View n} {h h' : CacheSet n} {tag : Nat} {l : L2.Line} {dir : Fin n → Bool}

theorem View.Shrinks.refl (x : View n) (a : Addr) : x.Shrinks a x := ⟨id, id, id, .inl⟩

theorem Gone.shrink (hg : Gone v tag) (hs : ∀ t k, (v t).Shrinks (tag, k) (v' t)) : Gone v' tag := by
  intro t k
  obtain ⟨hr, hf, hb⟩ := hg t k
  refine ⟨fun h => hr ((hs t k).reads h), fun h => hf ((hs t k).fetches h), fun h => ?_⟩
  rcases (hs t k).backs h with h | h
  · exact hb h
  · exact hr h.reads

theorem LineOk.shrink (hl : LineOk v tag l dir) (hs : ∀ t k, (v t).Shrinks (tag, k) (v' t)) : LineOk v' tag l dir := by
  unfold LineOk at hl ⊢
  cases hm : l.mesi with
  | i =>
      simp only [hm] at hl
      exact hl.shrink hs
  | s =>
      simp only [hm] at hl ⊢
      intro t k
      obtain ⟨hw, hb, hr, hf⟩ := hl t k
      refine ⟨fun h => hw ((hs t k).writes h), fun h => ?_, fun h => hr ((hs t k).reads h), fun h => hf ((hs t k).fetches h)⟩
      rcases (hs t k).backs h with h | h
      · exact hb h
      · exact hw h
  | e =>
      simp only [hm] at hl ⊢
      obtain ⟨hd, h0, o, ho, hx⟩ := hl
      refine ⟨hd, h0, o, ho, fun t k => ⟨fun h => (hx t k).1 ((hs t k).fetches h), ?_⟩⟩
      rintro (h | h)
      · exact (hx t k).2 (.inl ((hs t k).reads h))
      · rcases (hs t k).backs h with h | h
        · exact (hx t k).2 (.inr h)
        · exact (hx t k).2 (.inl h.reads)
  | b => simp only [hm] at hl

theorem Directory.shrink (hd : Directory cfg v h) (hs : ∀ t a, (v t).Shrinks a (v' t)) : Directory cfg v' h :=
  ⟨hd.unique, hd.invalid, hd.broadcast, fun way hw hv => (hd.line way hw hv).shrink fun t k => hs t (_, k),
    fun tag ha => (hd.absent tag ha).shrink fun t k => hs t (tag, k)⟩

/-- The kind of a line tells what the tiles have of it. -/
theorem LineOk.di (hl : LineOk v tag l dir) (t : Fin n) (k : BitVec 2) :
    (((v t).line (tag, k)).Reads → l.di = .data) ∧ ((v t).Fetches (tag, k) → l.di = .ins) := by
  unfold LineOk at hl
  cases hm : l.mesi with
  | i =>
      simp only [hm] at hl
      exact ⟨fun h => absurd h (hl t k).1, fun h => absurd h (hl t k).2.1⟩
  | s =>
      simp only [hm] at hl
      exact ⟨fun h => ((hl t k).2.2.1 h).2, fun h => ((hl t k).2.2.2 h).2⟩
  | e =>
      simp only [hm] at hl
      obtain ⟨hd, -, o, -, hx⟩ := hl
      exact ⟨fun _ => hd, fun h => absurd h (hx t k).1⟩
  | b => simp only [hm] at hl

end Frame

end OpenPiton.Coherence
