import OpenPiton.Coherence.TileSteps

namespace OpenPiton.Coherence

open L2 (Block Request Noc2 Noc3 MsgType CacheType FwdType CacheSet SetCfg Entry ToMem MemAck Out)
open L2.CacheSet (Passed Hit Absent Valid)
open L15 (Mesi MshrType)

variable {n : Nat} {cfg : SetCfg n} {v v' : Fin n → View n} {h h' : CacheSet n}

/-! ## Lines of the L2 -/

theorem Directory.congr (hd : Directory cfg v h) (hl : h'.lines = h.lines) (hr : h'.dir = h.dir) : Directory cfg v h' := by
  obtain ⟨hu, hi, hb, hline, ha⟩ := hd
  refine ⟨?_, ?_, ?_, ?_, ?_⟩
  · simpa only [CacheSet.Valid, hl] using hu
  · simpa only [CacheSet.Valid, hl] using hi
  · simpa only [hl] using hb
  · simpa only [CacheSet.Valid, hl, hr] using hline
  · simpa only [CacheSet.Absent, hl] using ha

/-- A valid line is written; of the other lines the tiles have no more than before. -/
theorem Directory.write (hd : Directory cfg v h) {w : Nat} (hw : w < cfg.ways) (hv : h.Valid w)
    (htag : h'.lines.tag = h.lines.tag) (hline : ∀ way ≠ w, h'.lines.line way = h.lines.line way)
    (hdir : ∀ way ≠ w, h'.dir way = h.dir way)
    (hs : ∀ t tag k, tag ≠ h.lines.tag w → (v t).Shrinks (tag, k) (v' t))
    (hl : h'.Valid w → LineOk v' (h.lines.tag w) (h'.lines.line w) (h'.dir w))
    (hg : ¬h'.Valid w → (h'.lines.line w).mesi = .i ∧ Gone v' (h.lines.tag w)) : Directory cfg v' h' := by
  have hvalid (way : Nat) (hne : way ≠ w) : h'.Valid way ↔ h.Valid way := by simp only [CacheSet.Valid, hline way hne]
  have hold (way : Nat) (h' : h'.Valid way) : h.Valid way := by
    by_cases hne : way = w
    · rw [hne]
      exact hv
    · exact (hvalid way hne).1 h'
  refine ⟨?_, ?_, ?_, ?_, ?_⟩
  · intro way hway way' hway' h1 h2 ht
    rw [htag] at ht
    exact hd.unique way hway way' hway' (hold way h1) (hold way' h2) ht
  · intro way h1
    by_cases hne : way = w
    · subst hne
      exact (hg h1).1
    · rw [hline way hne]
      exact hd.invalid way fun h2 => h1 ((hvalid way hne).2 h2)
  · intro way
    by_cases hne : way = w
    · subst hne
      by_cases h1 : h'.Valid way
      · have := hl h1
        intro hb
        simp [LineOk, hb] at this
      · rw [(hg h1).1]
        simp
    · rw [hline way hne]
      exact hd.broadcast way
  · intro way hway h1
    rw [htag]
    by_cases hne : way = w
    · subst hne
      exact hl h1
    · rw [hline way hne, hdir way hne]
      have h2 := (hvalid way hne).1 h1
      exact (hd.line way hway h2).shrink fun t k => hs t _ k fun ht => hne (hd.unique way hway w hw h2 hv ht)
  · intro tag ha
    by_cases ht : tag = h.lines.tag w
    · subst ht
      refine (hg fun h1 => ?_).2
      have := (CacheSet.Valid.hit h1 hw).2
      rw [htag, ha w hw] at this
      cases this
    · refine Gone.shrink (hd.absent tag fun way hway => ?_) fun t k => hs t tag k ht
      by_cases hne : way = w
      · subst hne
        have : h.lines.tag way ≠ tag := Ne.symm ht
        simp [L2.LineSet.tagHitWay, this]
      · have := ha way hway
        simpa only [L2.LineSet.tagHitWay, htag, hline way hne] using this

theorem Directory.line_of_hit (hd : Directory cfg v h) {tag w : Nat} (hh : Hit cfg h tag w) :
    LineOk v tag (h.lines.line w) (h.dir w) := by
  have := hd.line w hh.1 hh.valid
  rwa [hh.tag] at this

theorem LineOk.gone {tag : Nat} {l : L2.Line} {dir : Fin n → Bool} (hl : LineOk v tag l dir) (hm : l.mesi = .i) :
    Gone v tag := by
  simpa [LineOk, hm] using hl

theorem Gone.lineOk {tag : Nat} {l : L2.Line} {dir : Fin n → Bool} (hg : Gone v tag) (hm : l.mesi = .i) :
    LineOk v tag l dir := by
  simpa [LineOk, hm] using hg

/-- A line that no tile has is written. -/
theorem Directory.put_gone (hd : Directory cfg v h) {w : Nat} (hw : w < cfg.ways) (hv : h.Valid w)
    (hm : (h.lines.line w).mesi = .i) (l : L2.Line) (hl : l.mesi = .i) (e : Option (Entry n)) :
    Directory cfg v (h.put w l e) := by
  have hg : Gone v (h.lines.tag w) := (hd.line w hw hv).gone hm
  refine hd.write hw hv rfl (fun way hne => ?_) (fun _ _ => rfl) (fun t tag k _ => .refl _ _) (fun _ => ?_) fun _ => ⟨?_, hg⟩
  · simp [CacheSet.put, hne]
  · exact hg.lineOk (by simpa [CacheSet.put] using hl)
  · simpa [CacheSet.put] using hl

theorem Directory.put_vd (hd : Directory cfg v h) {w : Nat} (hw : w < cfg.ways) (hv : h.Valid w)
    (hm : (h.lines.line w).mesi = .i) (vd : L2.Vd) (e : Option (Entry n)) :
    Directory cfg v (h.put w { h.lines.line w with vd := vd } e) :=
  hd.put_gone hw hv hm { h.lines.line w with vd := vd } hm e

/-! ## Views after a pass -/

namespace View

/-- The requests and messages of a tile after a pass. -/
def passed (x : View n) (ms : List Noc2) (done : Bool) : View n :=
  ⟨x.tile, if done then x.queue.tail else x.queue, x.noc2 ++ ms, x.noc3⟩

variable {x : View n} {ms : List Noc2} {done : Bool} {a : Addr}

theorem reads_passed : ((x.passed ms done).line a).Reads ↔ (x.line a).Reads ∨ ∃ m ∈ ms, m.answers a = true ∧ m.mesi ≠ .i := by
  simp only [TileLine.Reads, View.line, passed, List.filter_append, List.mem_append, List.mem_filter, or_and_right, exists_or,
    or_assoc, and_assoc]

theorem writes_passed :
    ((x.passed ms done).line a).Writes ↔ (x.line a).Writes ∨ ∃ m ∈ ms, m.answers a = true ∧ m.mesi.me = true := by
  simp only [TileLine.Writes, View.line, passed, List.filter_append, List.mem_append, List.mem_filter, or_and_right, exists_or,
    or_assoc, and_assoc]

theorem fetches_passed : (x.passed ms done).Fetches a ↔ x.Fetches a ∨ ∃ m ∈ ms, m.givesInstr a = true := by
  simp only [Fetches, passed, List.mem_append, or_and_right, exists_or, or_assoc]

theorem backs_passed : (x.passed ms done).Backs a ↔ x.Backs a := Iff.rfl

/-- Messages that give nothing of a line. -/
theorem Shrinks.passed (hr : ∀ m ∈ ms, m.answers a = true → m.mesi = .i) (hf : ∀ m ∈ ms, m.givesInstr a = false) :
    x.Shrinks a (x.passed ms done) where
  reads := by
    rw [reads_passed]
    exact Or.rec id fun ⟨m, hm, ha, hi⟩ => absurd (hr m hm ha) hi
  writes := by
    rw [writes_passed]
    exact Or.rec id fun ⟨m, hm, ha, hi⟩ => absurd (hr m hm ha) (TileLine.me_ne_i hi)
  fetches := by
    rw [fetches_passed]
    exact Or.rec id fun ⟨m, hm, hi⟩ => absurd hi (by simp [hf m hm])
  backs := .inl

theorem passed_nil : x.passed [] false = x := by simp [passed]

theorem Still.passed (hs : x.Still) (hm : ∀ m ∈ ms, m.isForward = false) : (x.passed ms done).Still :=
  ⟨fun m h => (List.mem_append.1 h).elim (hs.1 m) (hm m), hs.2⟩

end View

section Local

variable {t : Fin n} {x : View n} {q : Request n} {qs : List (Request n)} {ms : List Noc2} {r : Noc2}

theorem View.line_passed_forwards (hm : ∀ m ∈ ms, m.isForward = true) (a : Addr) : (x.passed ms false).line a = x.line a := by
  have : ms.filter (·.answers a) = [] := by
    rw [List.filter_eq_nil_iff]
    intro m h
    cases m <;> simp [Noc2.isForward, Noc2.answers] at hm ⊢
    all_goals exact absurd (hm _ h) (by simp)
  simp [View.line, View.passed, this]

theorem Local.forwards (hl : Local t x) (hm : ∀ m ∈ ms, m.isForward = true) : Local t (x.passed ms false) := by
  refine ⟨fun a => ?_, hl.typed⟩
  rw [View.line_passed_forwards hm]
  exact hl.line a

theorem Local.typed_tail (hl : Local t x) (hq : x.queue = q :: qs) : ∀ q ∈ (x.passed ms true).queue, Typed t q := by
  intro q' hq'
  simp only [View.passed, hq, if_true, List.tail_cons] at hq'
  exact hl.typed q' (by simp [hq, hq'])

/-- A request goes that no MSHR waits for. -/
theorem Local.other (hl : Local t x) (hq : x.queue = q :: qs) (hn : ∀ a, (q.asks a || q.guards a) = false)
    (hm : ∀ m ∈ ms, ∀ a, m.answers a = false) : Local t (x.passed ms true) := by
  refine ⟨fun a => ?_, hl.typed_tail hq⟩
  have : ms.filter (·.answers a) = [] := by
    rw [List.filter_eq_nil_iff]
    intro m h
    simp [hm m h]
  have hline : (x.passed ms true).line a = x.line a := by simp [View.line, View.passed, this, hq, hn]
  rw [hline]
  exact hl.line a

/-- A guard goes after its write-back. -/
theorem Local.guard (hl : Local t x) (hq : x.queue = q :: qs) (hg : q.type = .wbguard) (hb : ¬x.Backs q.addr) :
    Local t (x.passed [] true) := by
  have hgq : q.guards q.addr = true := Request.guards_iff.2 ⟨hg, rfl⟩
  refine ⟨fun a => ?_, hl.typed_tail hq⟩
  have hqa := Request.line_eq (b := a) (.inr hgq)
  by_cases ha : q.addr = a
  · subst ha
    have hl' : (x.line q.addr).queue = q :: qs.filter fun q' => q'.asks q.addr || q'.guards q.addr := by
      simp [View.line, hq, hqa]
    have := (hl.line q.addr).guardDone hl' hg (by simpa [View.Backs] using hb)
    simpa [View.line, View.passed, hq] using this
  · have hn : (q.asks a || q.guards a) = false := hqa.trans (beq_eq_false_iff_ne.2 ha)
    have hline : (x.passed [] true).line a = x.line a := by simp [View.line, View.passed, hq, hn]
    rw [hline]
    exact hl.line a

/-- A request is answered. -/
theorem Local.answer (hl : Local t x) (hq : x.queue = q :: qs) (ha : q.asks q.addr = true)
    (hr : ∀ a, r.answers a = (q.addr == a)) (hby : ∀ m : Slot, m.accepts q.type = true → m.answeredBy r = true) :
    Local t (x.passed [r] true) := by
  refine ⟨fun a => ?_, hl.typed_tail hq⟩
  have hqa := Request.line_eq (b := a) (.inl ha)
  by_cases haq : q.addr = a
  · subst haq
    have hl' : (x.line q.addr).queue = q :: qs.filter fun q' => q'.asks q.addr || q'.guards q.addr := by
      simp [View.line, hq, hqa]
    have := (hl.line q.addr).answer hl' (Request.asks_iff.1 ha).1 hby
    simpa [View.line, View.passed, hq, hr] using this
  · have hn : (q.asks a || q.guards a) = false := hqa.trans (beq_eq_false_iff_ne.2 haq)
    have hna : r.answers a = false := (hr a).trans (beq_eq_false_iff_ne.2 haq)
    have hline : (x.passed [r] true).line a = x.line a := by simp [View.line, View.passed, hq, hn, hna]
    rw [hline]
    exact hl.line a

/-- The MSHR that a request is for, when it is next. -/
theorem Local.mshr_of_head (hl : Local t x) (hq : x.queue = q :: qs) (ha : q.asks q.addr = true) :
    ∃ m, x.tile.mshr q.addr = some m ∧ m.Ok ∧ m.accepts q.type = true ∧ q.mshrType = m.type := by
  have hl' : (x.line q.addr).queue = q :: qs.filter fun q' => q'.asks q.addr || q'.guards q.addr := by
    simp [View.line, hq, ha]
  exact (hl.line q.addr).mshr_of_head hl' (Request.asks_iff.1 ha).1

end Local

section Types

variable {q : Request n} {m : Slot}

theorem asks_of_demand (hd : q.type.demand = true) (hc : q.cacheType = .data) : q.asks q.addr = true :=
  Request.asks_iff.2 ⟨hd, hc, rfl⟩

theorem Slot.Ok.mshrType_ne (hm : m.Ok) : m.type ≠ .ifill := by
  rw [hm.type]
  split <;> simp

/-- What the L2 answers is what the MSHR waits for. -/
theorem Slot.answeredBy_grant (ht : q.type = .load ∨ q.type = .store ∨ q.type = .lr) (ha : m.accepts q.type = true)
    (mshrType : MshrType) (tag : Nat) (k : BitVec 2) (d : List Block) :
    m.answeredBy (.dataAck mshrType tag k (CacheSet.grantMesi q.type) d) = true := by
  rcases ht with ht | ht | ht <;> simp only [ht, Slot.accepts, Bool.and_eq_true, Bool.not_eq_true'] at ha <;>
    simp [Slot.answeredBy, CacheSet.grantMesi, ht, ha]

theorem Slot.answeredBy_share (ht : q.type = .load) (ha : m.accepts q.type = true) (mshrType : MshrType) (tag : Nat)
    (k : BitVec 2) (d : List Block) : m.answeredBy (.dataAck mshrType tag k .s d) = true := by
  simp only [ht, Slot.accepts, Bool.and_eq_true, Bool.not_eq_true'] at ha
  simp [Slot.answeredBy, ha]

theorem Slot.answeredBy_read (ht : q.type = .ncLoad ∨ q.type.isP1 = true) (ha : m.accepts q.type = true)
    (mshrType : MshrType) (tag : Nat) (k : BitVec 2) (d : List Block) :
    m.answeredBy (.dataAck mshrType tag k .i d) = true := by
  rcases ht with ht | ht
  · simp only [ht, Slot.accepts, Bool.and_eq_true] at ha
    simp [Slot.answeredBy, ha]
  · cases hq : q.type <;> simp [hq, MsgType.isP1] at ht <;>
      simp only [hq, Slot.accepts, Bool.and_eq_true, Bool.not_eq_true'] at ha <;> simp [Slot.answeredBy, ha]

end Types

end OpenPiton.Coherence
