import OpenPiton.Coherence.Receives

namespace OpenPiton.L2

namespace Noc2

variable (m : Noc2) (a : Nat × BitVec 2)

/-- The state that an answer gives its tile. -/
def mesi : L15.Mesi :=
  match m with
  | .dataAck _ _ _ mesi _ => mesi
  | _ => .i

/-- The message answers the MSHR of the line. -/
def answers : Bool :=
  match m with
  | .dataAck mshrType tag subline _ _ => mshrType != .ifill && (tag, subline) == a
  | .nodataAck mshrType tag subline => mshrType == .st && (tag, subline) == a
  | .forward .. => false

def givesInstr : Bool :=
  match m with
  | .dataAck mshrType tag subline _ _ => mshrType == .ifill && tag == a.1 && subline.toNat / 2 == a.2.toNat / 2
  | _ => false

def isForward : Bool :=
  match m with
  | .forward .. => true
  | _ => false

end Noc2

namespace Noc3

variable (m : Noc3) (a : Nat × BitVec 2)

def isAck : Bool :=
  match m with
  | .fwdAck .. => true
  | .writeBack .. => false

def isBack : Bool :=
  match m with
  | .writeBack tag subline _ => (tag, subline) == a
  | .fwdAck .. => false

@[simp] theorem isBack_writeBack (tag : Nat) (subline : BitVec 2) (data : Block) :
    (writeBack tag subline data).isBack a = ((tag, subline) == a) := rfl

@[simp] theorem isBack_fwdAck (type : FwdType) (k : BitVec 2) (last : Bool) (data : Option Block) :
    (fwdAck type k last data).isBack a = false := rfl

end Noc3

end OpenPiton.L2

namespace OpenPiton.Coherence

open L2 (Block Request Noc2 Noc3 MsgType CacheType FwdType)
open L15 (Mesi MshrType)

variable {n : Nat}

/-- The answers that the MSHR may get. -/
def Slot.answeredBy (m : Slot) : Noc2 → Bool
  | .dataAck _ _ _ mesi _ =>
      if m.control.nc then mesi == .i && (m.control.load || m.control.atomic)
      else if m.control.atomic then mesi == .m
      else if m.control.load then mesi == .s || mesi == .e
      else mesi == .m
  | .nodataAck .. => m.accepts .ncStore
  | .forward .. => false

/-- What there is of a line for one tile: its copy and its MSHR, the requests and guards of the line that the L2
has yet to carry out, the answers and the write-backs under way. -/
structure TileLine (n : Nat) where
  copy : Copy
  mshr : Option Slot
  queue : List (Request n)
  answers : List Noc2
  backs : List Noc3

namespace TileLine

variable (l : TileLine n)

/-- The tile may read the line, or will when it has its answer. -/
def Reads : Prop := l.copy.mesi ≠ .i ∨ ∃ m ∈ l.answers, m.mesi ≠ .i

def Writes : Prop := l.copy.mesi.me = true ∨ ∃ m ∈ l.answers, m.mesi.me = true

/-- The requests and answers under way. -/
def live : Nat := l.queue.countP (·.type.demand) + l.answers.length

/-- The MSHR has one request or answer under way, of its kind; a write-back is one, the line is gone, and its
guard comes before the next request. -/
structure Ok : Prop where
  kind : ∀ q ∈ l.queue, q.type.demand = true ∨ q.type = .wbguard
  live : l.live = if l.mshr.isSome then 1 else 0
  slot : ∀ m, l.mshr = some m → m.Ok ∧ (l.copy.mesi = .i ∨ l.copy.mesi = .s ∧ m.accepts .store = true)
  asked : ∀ m, l.mshr = some m → ∀ q ∈ l.queue, q.type.demand = true → m.accepts q.type = true ∧ q.mshrType = m.type
  answered : ∀ m, l.mshr = some m → ∀ r ∈ l.answers, m.answeredBy r = true
  lrsc : l.copy.lrsc = true → l.copy.mesi = .m
  back : l.backs ≠ [] → l.backs.length = 1 ∧ ¬l.Reads ∧ ∃ q, l.queue.head? = some q ∧ q.type = .wbguard

variable {l} {m : Slot} {q : Request n} {r : Noc2} {c : Copy}

theorem me_ne_i {x : Mesi} (h : x.me = true) : x ≠ .i := by
  rintro rfl
  cases h

theorem Writes.reads (h : l.Writes) : l.Reads := by
  rcases h with h | ⟨m, hm, h⟩
  · exact .inl (me_ne_i h)
  · exact .inr ⟨m, hm, me_ne_i h⟩

/-- A tile with a line of its own asks for nothing. -/
theorem Ok.mshr_of_me (h : l.Ok) (hc : l.copy.mesi.me = true) : l.mshr = none := by
  cases hm : l.mshr with
  | none => rfl
  | some m =>
      rcases (h.slot m hm).2 with hi | ⟨hs, -⟩
      · simp [hi, Mesi.me] at hc
      · simp [hs, Mesi.me] at hc

theorem Ok.idle (h : l.Ok) (hm : l.mshr = none) : (∀ q ∈ l.queue, q.type.demand = false) ∧ l.answers = [] := by
  have := h.live
  simp only [TileLine.live, hm, Option.isSome_none, Bool.false_eq_true, if_false, Nat.add_eq_zero_iff,
    List.countP_eq_zero, List.length_eq_zero_iff] at this
  exact ⟨fun q hq => by simpa using this.1 q hq, this.2⟩

/-- The answer under way is the only one, and the MSHR waits for it. -/
theorem Ok.of_answer (h : l.Ok) {rs : List Noc2} (hr : l.answers = r :: rs) :
    (∃ m, l.mshr = some m ∧ m.Ok ∧ m.answeredBy r = true ∧
      (l.copy.mesi = .i ∨ l.copy.mesi = .s ∧ m.accepts .store = true)) ∧
      (∀ q ∈ l.queue, q.type.demand = false) ∧ rs = [] := by
  have hl := h.live
  cases hm : l.mshr with
  | none => simp [TileLine.live, hr, hm] at hl
  | some m =>
      simp only [TileLine.live, hr, hm, Option.isSome_some, if_true, List.length_cons] at hl
      have h0 : l.queue.countP (·.type.demand) = 0 ∧ rs.length = 0 := by omega
      refine ⟨⟨m, rfl, (h.slot m hm).1, h.answered m hm r (by simp [hr]), (h.slot m hm).2⟩, ?_, by simpa using h0.2⟩
      simpa [List.countP_eq_zero] using h0.1

/-! ## What a tile does -/

theorem Ok.write (h : l.Ok) (hw : l.copy.mesi.me = true) (hc : c.mesi = .m) : Ok { l with copy := c } where
  kind := h.kind
  live := h.live
  slot m hm := absurd (h.mshr_of_me hw) (by simp [show l.mshr = some m from hm])
  asked := h.asked
  answered := h.answered
  lrsc _ := hc
  back hb := absurd (.inl (me_ne_i hw)) (h.back hb).2.1

theorem Ok.drop (h : l.Ok) (hm : l.copy.mesi ≠ .m) (hc : c.mesi = .i) (hl : c.lrsc = true → l.copy.lrsc = true) :
    Ok { l with copy := c } where
  kind := h.kind
  live := h.live
  slot m hs := ⟨(h.slot m hs).1, .inl hc⟩
  asked := h.asked
  answered := h.answered
  lrsc hr := absurd (h.lrsc (hl hr)) hm
  back hb := by
    obtain ⟨h1, hr, hq⟩ := h.back hb
    refine ⟨h1, ?_, hq⟩
    rintro (hi | hi)
    · exact hi hc
    · exact hr (.inr hi)

/-- The guard of a write-back comes before the requests that follow. -/
theorem Ok.writeBack (h : l.Ok) (hm : l.copy.mesi = .m) (hc : c.mesi = .i ∧ c.lrsc = false) (hq : q.type = .wbguard)
    (b : Noc3) : Ok { l with copy := c, queue := l.queue ++ [q], backs := l.backs ++ [b] } := by
  have hme : l.copy.mesi.me = true := by simp [hm, Mesi.me]
  have hnone := h.mshr_of_me hme
  obtain ⟨hqueue, hans⟩ := h.idle hnone
  have hback : l.backs = [] := by
    by_contra hb
    exact (h.back hb).2.1 (.inl (me_ne_i hme))
  have hguard : ∀ q' ∈ l.queue ++ [q], q'.type = .wbguard := by
    intro q' hq'
    rcases List.mem_append.1 hq' with h' | h'
    · exact (h.kind q' h').resolve_left (by simp [hqueue q' h'])
    · rw [List.mem_singleton.1 h', hq]
  have hmshr (m : Slot) : l.mshr ≠ some m := by simp [hnone]
  refine ⟨fun q' hq' => .inr (hguard q' hq'), ?_, fun m hs => absurd hs (hmshr m), fun m hs => absurd hs (hmshr m),
    h.answered, ?_, fun _ => ⟨by simp [hback], ?_, ?_⟩⟩
  · simpa [TileLine.live, hq, MsgType.demand] using h.live
  · intro hl
    simp [hc.2] at hl
  · rintro (hi | ⟨m, hi, -⟩)
    · exact hi hc.1
    · simp [hans] at hi
  · obtain ⟨q', hq'⟩ := Option.isSome_iff_exists.1 (show (l.queue ++ [q]).head?.isSome = true by simp)
    exact ⟨q', hq', hguard q' (List.mem_of_mem_head? hq')⟩

theorem Ok.ask (h : l.Ok) (hn : l.mshr = none) (hm : m.Ok)
    (hc : l.copy.mesi = .i ∨ l.copy.mesi = .s ∧ m.accepts .store = true) (hd : q.type.demand = true)
    (ha : m.accepts q.type = true) (ht : q.mshrType = m.type) :
    Ok { l with mshr := some m, queue := l.queue ++ [q] } := by
  obtain ⟨hqueue, hans⟩ := h.idle hn
  refine ⟨?_, ?_, ?_, ?_, ?_, h.lrsc, ?_⟩
  · intro q' hq'
    rcases List.mem_append.1 hq' with h' | h'
    · exact h.kind q' h'
    · rw [List.mem_singleton.1 h']
      exact .inl hd
  · have : l.queue.countP (·.type.demand) = 0 := by simpa [List.countP_eq_zero] using hqueue
    simp [TileLine.live, this, hans, hd]
  · intro m' hm'
    obtain rfl := Option.some.inj hm'
    exact ⟨hm, hc⟩
  · intro m' hm' q' hq' hd'
    obtain rfl := Option.some.inj hm'
    rcases List.mem_append.1 hq' with h' | h'
    · simp [hqueue q' h'] at hd'
    · rw [List.mem_singleton.1 h']
      exact ⟨ha, ht⟩
  · simp [hans]
  · intro hb
    obtain ⟨h1, hr, q', hq', hg⟩ := h.back hb
    exact ⟨h1, hr, q', by simp [hq'], hg⟩

theorem Ok.merge (h : l.Ok) (hm : l.mshr = some m) (f : Block → Block) :
    Ok { l with mshr := some { m with merge := f } } := by
  have hok := (h.slot m hm).1
  refine ⟨h.kind, ?_, ?_, ?_, ?_, h.lrsc, h.back⟩
  · simpa [TileLine.live, hm] using h.live
  · intro m' hm'
    obtain rfl := Option.some.inj hm'
    exact ⟨⟨hok.icache, hok.type, hok.store⟩, (h.slot m hm).2⟩
  · intro m' hm'
    obtain rfl := Option.some.inj hm'
    exact h.asked m hm
  · intro m' hm' r hr
    obtain rfl := Option.some.inj hm'
    have := h.answered m hm r hr
    cases r <;> exact this

/-- The answer comes. -/
theorem Ok.filled (h : l.Ok) {rs : List Noc2} (hr : l.answers = r :: rs) (hm : l.mshr = some m) {x : Mesi}
    (hx : x = r.mesi) (d : Block) (ht : ∃ t tag k x d, r = .dataAck t tag k x d) :
    Ok { l with copy := m.filled x d l.copy, mshr := none, answers := rs } := by
  obtain ⟨⟨m', hm', hok, hans, hcopy⟩, hqueue, rfl⟩ := h.of_answer hr
  obtain rfl := Option.some.inj (hm.symm.trans hm')
  have hmshr (m' : Slot) : (none : Option Slot) ≠ some m' := by simp
  refine ⟨h.kind, ?_, fun m' hs => absurd hs (hmshr m'), fun m' hs => absurd hs (hmshr m'), by simp, ?_, ?_⟩
  · have : l.queue.countP (·.type.demand) = 0 := by simpa [List.countP_eq_zero] using hqueue
    simp [TileLine.live, this]
  · intro hl
    have hf : l.copy.lrsc = false := by
      by_contra hf
      have := h.lrsc (by simpa using hf)
      rcases hcopy with hc | ⟨hc, -⟩ <;> simp [this] at hc
    obtain ⟨t, tag, k, x, d, rfl⟩ := ht
    subst hx
    revert hl hans
    simp only [Slot.answeredBy, Slot.filled]
    split
    · simp [hf]
    · split
      · simp
      · split <;> simp [hf]
  · intro hb
    obtain ⟨h1, hnr, hq⟩ := h.back hb
    refine ⟨h1, ?_, hq⟩
    have hi : r.mesi = .i ∧ l.copy.mesi = .i := by
      simpa [TileLine.Reads, hr, and_comm] using hnr
    rintro (hc | ⟨m, hc, -⟩)
    · refine hc ?_
      subst hx
      simp only [Slot.filled]
      split
      · exact hi.2
      · split
        · exact hi.1
        · split <;> exact hi.1
    · cases hc

theorem Ok.acked (h : l.Ok) {rs : List Noc2} (hr : l.answers = r :: rs) : Ok { l with mshr := none, answers := rs } := by
  obtain ⟨⟨m, hm, -, -, -⟩, hqueue, rfl⟩ := h.of_answer hr
  have hmshr (m' : Slot) : (none : Option Slot) ≠ some m' := by simp
  refine ⟨h.kind, ?_, fun m' hs => absurd hs (hmshr m'), fun m' hs => absurd hs (hmshr m'), by simp, h.lrsc, ?_⟩
  · have : l.queue.countP (·.type.demand) = 0 := by simpa [List.countP_eq_zero] using hqueue
    simp [TileLine.live, this]
  · intro hb
    obtain ⟨h1, hnr, hq⟩ := h.back hb
    refine ⟨h1, ?_, hq⟩
    rintro (hc | ⟨m, hc, -⟩)
    · exact hnr (.inl hc)
    · cases hc

theorem forwarded_accepts (m : Slot) (type : FwdType) (t : MsgType) : (m.forwarded type).accepts t = m.accepts t := by
  unfold Slot.forwarded
  split <;> rfl

theorem Slot.Ok.forwarded (h : m.Ok) (type : FwdType) : (m.forwarded type).Ok := by
  unfold Slot.forwarded
  split
  · rename_i hs
    exact ⟨h.icache, h.type, iff_of_true (.inr rfl) (h.store.1 (.inl hs.2.2))⟩
  · exact h

theorem Ok.forwarded (h : l.Ok) (type : FwdType) :
    Ok { l with copy := l.copy.forwarded type, mshr := l.mshr.map (Slot.forwarded · type) } := by
  refine ⟨h.kind, ?_, ?_, ?_, ?_, ?_, ?_⟩
  · simpa [TileLine.live] using h.live
  · intro m' hm'
    obtain ⟨m, hm, rfl⟩ := Option.map_eq_some_iff.1 hm'
    obtain ⟨hok, hc⟩ := h.slot m hm
    refine ⟨Slot.Ok.forwarded hok type, ?_⟩
    rw [forwarded_accepts]
    by_cases ht : type = .load
    · rcases hc with hc | ⟨hc, ha⟩
      · exact .inl (by simp [Copy.forwarded, hc, Mesi.me])
      · exact .inr ⟨by simp [Copy.forwarded, hc, ht, Mesi.me], ha⟩
    · exact .inl (by simp [Copy.forwarded, ht])
  · intro m' hm' q hq hd
    obtain ⟨m, hm, rfl⟩ := Option.map_eq_some_iff.1 hm'
    have := h.asked m hm q hq hd
    refine ⟨by simpa [forwarded_accepts] using this.1, ?_⟩
    unfold Slot.forwarded
    split <;> exact this.2
  · intro m' hm' r hr
    obtain ⟨m, hm, rfl⟩ := Option.map_eq_some_iff.1 hm'
    have := h.answered m hm r hr
    unfold Slot.forwarded
    split
    · cases r <;> exact this
    · exact this
  · intro hl
    simp only [Copy.forwarded] at hl
    split at hl
    · cases hl
    · rename_i hm
      exact absurd (h.lrsc hl) hm
  · intro hb
    obtain ⟨h1, hnr, hq⟩ := h.back hb
    refine ⟨h1, ?_, hq⟩
    rintro (hc | hc)
    · refine hnr (.inl fun hi => hc ?_)
      simp [Copy.forwarded, hi, Mesi.me]
    · exact hnr (.inr hc)

/-! ## What the L2 does -/

/-- The head of the queue in another phase. -/
theorem Ok.retype (h : l.Ok) {q' : Request n} {qs : List (Request n)} (hq : l.queue = q :: qs)
    (hd : q'.type.demand = q.type.demand) (hg : q'.type = .wbguard ↔ q.type = .wbguard)
    (ha : ∀ m : Slot, m.accepts q'.type = m.accepts q.type) (ht : q'.mshrType = q.mshrType) :
    Ok { l with queue := q' :: qs } := by
  refine ⟨?_, ?_, h.slot, ?_, h.answered, h.lrsc, ?_⟩
  · intro x hx
    rcases List.mem_cons.1 hx with rfl | hx
    · rw [hd, hg]
      exact h.kind q (by simp [hq])
    · exact h.kind x (by simp [hq, hx])
  · simpa [TileLine.live, hq, List.countP_cons, hd] using h.live
  · intro m hm x hx hdx
    rcases List.mem_cons.1 hx with rfl | hx
    · rw [ha, ht]
      exact h.asked m hm q (by simp [hq]) (hd ▸ hdx)
    · exact h.asked m hm x (by simp [hq, hx]) hdx
  · intro hb
    obtain ⟨h1, hnr, x, hx, hxg⟩ := h.back hb
    refine ⟨h1, hnr, q', rfl, hg.2 ?_⟩
    rw [hq] at hx
    rwa [Option.some.inj hx]

theorem Ok.guardDone (h : l.Ok) {qs : List (Request n)} (hq : l.queue = q :: qs) (hg : q.type = .wbguard)
    (hb : l.backs = []) : Ok { l with queue := qs } := by
  refine ⟨?_, ?_, h.slot, ?_, h.answered, h.lrsc, fun hb' => absurd hb hb'⟩
  · exact fun x hx => h.kind x (by simp [hq, hx])
  · simpa [TileLine.live, hq, hg, MsgType.demand] using h.live
  · exact fun m hm x hx => h.asked m hm x (by simp [hq, hx])

/-- No write-back is under way when the request of a line is next. -/
theorem Ok.backs_of_head (h : l.Ok) {qs : List (Request n)} (hq : l.queue = q :: qs) (hd : q.type.demand = true) :
    l.backs = [] := by
  by_contra hb
  obtain ⟨-, -, x, hx, hxg⟩ := h.back hb
  rw [hq] at hx
  obtain rfl := Option.some.inj hx
  simp [hxg, MsgType.demand] at hd

theorem Ok.mshr_of_head (h : l.Ok) {qs : List (Request n)} (hq : l.queue = q :: qs) (hd : q.type.demand = true) :
    ∃ m, l.mshr = some m ∧ m.Ok ∧ m.accepts q.type = true ∧ q.mshrType = m.type := by
  cases hm : l.mshr with
  | none =>
      have := (h.idle hm).1 q (by simp [hq])
      simp [this] at hd
  | some m => exact ⟨m, rfl, (h.slot m hm).1, h.asked m hm q (by simp [hq]) hd⟩

/-- A request becomes its answer. -/
theorem Ok.answer (h : l.Ok) {qs : List (Request n)} (hq : l.queue = q :: qs) (hd : q.type.demand = true)
    (ha : ∀ m : Slot, m.accepts q.type = true → m.answeredBy r = true) :
    Ok { l with queue := qs, answers := l.answers ++ [r] } := by
  have hb := h.backs_of_head hq hd
  obtain ⟨m, hm, -, hac, -⟩ := h.mshr_of_head hq hd
  refine ⟨fun x hx => h.kind x (by simp [hq, hx]), ?_, h.slot, fun m hm x hx => h.asked m hm x (by simp [hq, hx]), ?_,
    h.lrsc, fun hb' => absurd hb hb'⟩
  · have := h.live
    simp only [TileLine.live, hq, List.countP_cons, hd, if_true] at this
    simp only [TileLine.live, List.length_append, List.length_singleton, ← this]
    omega
  · intro m' hm' x hx
    rcases List.mem_append.1 hx with hx | hx
    · exact h.answered m' hm' x hx
    · obtain rfl := Option.some.inj (hm.symm.trans hm')
      rw [List.mem_singleton.1 hx]
      exact ha m hac

/-- The write-back is there. -/
theorem Ok.backDone (h : l.Ok) {b : Noc3} {bs : List Noc3} (hb : l.backs = b :: bs) : bs = [] ∧ Ok { l with backs := bs } := by
  have hbs : bs = [] := by
    have := (h.back (by simp [hb])).1
    simpa [hb] using this
  exact ⟨hbs, h.kind, h.live, h.slot, h.asked, h.answered, h.lrsc, fun h' => absurd hbs h'⟩

end TileLine

end OpenPiton.Coherence
