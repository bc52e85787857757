import OpenPiton.Coherence.PassSteps

namespace OpenPiton.Coherence

open L2 (Block Request Noc2 Noc3 MsgType CacheType FwdType CacheSet SetCfg Entry ToMem MemAck Out)
open L2.CacheSet (Passed Hit Absent Valid)
open L15 (Mesi MshrType)

variable {n : Nat} {cfg : SetCfg n} {v : Fin n → View n} {h h' : CacheSet n} {toMem : List ToMem} {fromMem : List MemAck}
  {q : Request n} {e : Entry n}

theorem awaited_append (mem : List ToMem) :
    awaited (toMem ++ mem) fromMem = awaited toMem fromMem + mem.countP ToMem.asks := by
  simp only [awaited, List.countP_append]
  omega

/-- A request is at the head of pipeline 1 and nothing else is under way in its set but answers and write-backs. -/
structure Ready (cfg : SetCfg n) (v : Fin n → View n) (h : CacheSet n) (toMem : List ToMem) (fromMem : List MemAck)
    (q : Request n) : Prop where
  tile : ∀ t, Local t (v t)
  directory : Directory cfg v h
  still : ∀ t, (v t).Still
  awaited : awaited toMem fromMem = 0
  inPipe : q.type.inPipe = true
  head : ∃ qs, (v q.src).queue = q :: qs

/-- An entry that is pending waits for nothing. -/
theorem Safe.ready (hs : Safe cfg v (h.setEntry (some e)) toMem fromMem) (hp : e.pending = true) :
    Ready cfg v h toMem fromMem e.req := by
  obtain ⟨hin, hq⟩ := hs.entry e rfl
  refine ⟨hs.tile, hs.directory.congr rfl rfl, ?_, ?_, hin, hq⟩
  · rcases hs.phase with h0 | ⟨e', p, he, hf⟩
    · exact h0
    · obtain rfl := Option.some.inj he
      have := hf.waits
      simp [hp] at this
  · by_contra ha
    obtain ⟨-, e', he, hf⟩ := hs.memory (Nat.pos_of_ne_zero ha)
    obtain rfl := Option.some.inj he
    have := hf.waits
    simp [hp] at this

namespace Ready

variable (hr : Ready cfg v h toMem fromMem q)
include hr

theorem typed : Typed q.src q := by
  obtain ⟨qs, hq⟩ := hr.head
  exact (hr.tile q.src).typed q (by simp [hq])

theorem ok : q.Ok := ⟨hr.inPipe, hr.typed.data⟩

/-- The request stays in its entry. -/
theorem wait (hd : Directory cfg v h') {e' : Entry n} (he : h'.mshr = some e') (heq : e'.req = q) {mem : List ToMem}
    (hm : mem.countP ToMem.asks ≠ 0 → Fetching cfg h' (toMem ++ mem) fromMem e') : Safe cfg v h' (toMem ++ mem) fromMem := by
  refine ⟨hr.tile, hd, ?_, .inl hr.still, fun ha => ⟨hr.still, e', he, hm fun h0 => ?_⟩⟩
  · intro e'' he''
    obtain rfl := Option.some.inj (he.symm.trans he'')
    rw [heq]
    exact ⟨hr.inPipe, hr.head⟩
  · simp [awaited_append, hr.awaited, h0] at ha

/-- The request goes, perhaps with an answer. -/
theorem done (hn : h'.mshr = none) {ms : List Noc2} (hms : ∀ m ∈ ms, m.isForward = false)
    (hl : Local q.src ((v q.src).passed ms true))
    (hd : Directory cfg (Function.update v q.src ((v q.src).passed ms true)) h') {mem : List ToMem}
    (hm : mem.countP ToMem.asks = 0) :
    Safe cfg (Function.update v q.src ((v q.src).passed ms true)) h' (toMem ++ mem) fromMem := by
  refine ⟨?_, hd, by simp [hn], .inl ?_, fun ha => ?_⟩
  · intro t
    by_cases ht : t = q.src
    · subst ht
      simpa using hl
    · simpa [ht] using hr.tile t
  · intro t
    by_cases ht : t = q.src
    · subst ht
      simpa using (hr.still q.src).passed hms
    · simpa [ht] using hr.still t
  · simp [awaited_append, hr.awaited, hm] at ha

/-- Forwards go out, and the request waits for them. -/
theorem forward {fwd : Fin n → List Noc2} (hf : ∀ t, ∀ m ∈ fwd t, m.isForward = true) (e' : Entry n) (he : h'.mshr = some e')
    (heq : e'.req = q) (hd : Directory cfg v h') (p : Phase n)
    (hp : Forwarding cfg (fun t => (v t).passed (fwd t) false) h' e' p) :
    Safe cfg (fun t => (v t).passed (fwd t) false) h' toMem fromMem := by
  refine ⟨fun t => (hr.tile t).forwards (hf t), hd.shrink fun t a => ?_, ?_, .inr ⟨e', p, he, hp⟩, fun ha => ?_⟩
  · refine .passed (fun m hm ha => ?_) fun m hm => ?_
    · have := hf t m hm
      cases m <;> simp [Noc2.isForward] at this
      rfl
    · have := hf t m hm
      cases m <;> simp [Noc2.isForward] at this
      rfl
  · intro e'' he''
    obtain rfl := Option.some.inj (he.symm.trans he'')
    rw [heq]
    exact ⟨hr.inPipe, hr.head⟩
  · simp [hr.awaited] at ha

end Ready

/-! ## What the tiles see -/

section Given

variable {src t : Fin n} {ms : List Noc2} {r : Noc2} {a : Addr}

theorem reads_given : ((Function.update v src ((v src).passed [r] true) t).line a).Reads ↔
    ((v t).line a).Reads ∨ t = src ∧ r.answers a = true ∧ r.mesi ≠ .i := by
  by_cases ht : t = src
  · subst ht
    simp [View.reads_passed]
  · simp [ht]

theorem writes_given : ((Function.update v src ((v src).passed [r] true) t).line a).Writes ↔
    ((v t).line a).Writes ∨ t = src ∧ r.answers a = true ∧ r.mesi.me = true := by
  by_cases ht : t = src
  · subst ht
    simp [View.writes_passed]
  · simp [ht]

theorem fetches_given : (Function.update v src ((v src).passed [r] true) t).Fetches a ↔
    (v t).Fetches a ∨ t = src ∧ r.givesInstr a = true := by
  by_cases ht : t = src
  · subst ht
    simp [View.fetches_passed]
  · simp [ht]

theorem backs_given : (Function.update v src ((v src).passed ms true) t).Backs a ↔ (v t).Backs a := by
  by_cases ht : t = src
  · subst ht
    simp [View.backs_passed]
  · simp [ht]

/-- An answer that gives nothing. -/
theorem Directory.nothing_given (hd : Directory cfg v h) (hr : ∀ m ∈ ms, ∀ a, m.answers a = true → m.mesi = .i)
    (hf : ∀ m ∈ ms, ∀ a, m.givesInstr a = false) : Directory cfg (Function.update v src ((v src).passed ms true)) h := by
  refine hd.shrink fun t a => ?_
  by_cases ht : t = src
  · subst ht
    simpa using View.Shrinks.passed (fun m hm => hr m hm a) fun m hm => hf m hm a
  · simpa [ht] using View.Shrinks.refl (v t) a

/-- An answer that gives something of a line. -/
theorem Directory.given (hd : Directory cfg v h) {w : Nat} (hh : Hit cfg h q.tag w)
    (hr : ∀ a, r.answers a = true → a.1 = q.tag) (hf : ∀ a, r.givesInstr a = true → a.1 = q.tag)
    (htag : h'.lines.tag = h.lines.tag) (hline : ∀ way ≠ w, h'.lines.line way = h.lines.line way)
    (hdir : ∀ way ≠ w, h'.dir way = h.dir way) (hv : h'.Valid w)
    (hl : LineOk (Function.update v src ((v src).passed [r] true)) q.tag (h'.lines.line w) (h'.dir w)) :
    Directory cfg (Function.update v src ((v src).passed [r] true)) h' := by
  refine hd.write hh.1 hh.valid htag hline hdir (fun t tag k ht => ?_) (fun _ => by rwa [hh.tag]) fun hn => absurd hv hn
  rw [hh.tag] at ht
  refine ⟨fun h => ?_, fun h => ?_, fun h => ?_, fun h => .inl (backs_given.1 h)⟩
  · exact (reads_given.1 h).resolve_right fun h' => ht (hr _ h'.2.1)
  · exact (writes_given.1 h).resolve_right fun h' => ht (hr _ h'.2.1)
  · exact (fetches_given.1 h).resolve_right fun h' => ht (hf _ h'.2)

end Given

/-! ## Forwards -/

theorem sent_map {l : List (Fin n)} (hl : l.Nodup) (m : Noc2) (mem : List ToMem) (t : Fin n) :
    System.sent { tiles := l.map fun u => (u.val, m), mem := mem } t = if t ∈ l then [m] else [] := by
  induction l with
  | nil => rfl
  | cons u l ih =>
      obtain ⟨hu, hl⟩ := List.nodup_cons.1 hl
      have ih := ih hl
      simp only [System.sent] at ih
      simp only [System.sent, List.map_cons, List.filterMap_cons]
      by_cases h : u = t
      · subst h
        simp [ih, hu]
      · have hv : ¬u.val = t.val := fun h' => h (Fin.ext h')
        simp [hv, ih, Ne.symm h]

theorem sharers_nodup (way : Nat) : (h.sharers way).Nodup := (List.nodup_finRange n).filter _

namespace Ready

theorem invalidate (hr : Ready cfg v h toMem fromMem q) {w : Nat} (hg : q.type ≠ .wbguard) (hw : w < cfg.ways)
    (hv : h.Valid w) (hm : (h.lines.line w).mesi = .s) :
    Safe cfg
      (fun t => (v t).passed
        (if t ∈ h.sharers w then [.forward .inv (h.lines.tag w) (BitVec.allOnes 4) (h.lines.line w).di] else []) false)
      (h.put w { h.lines.line w with owner := (h.sharers w).length % 2 ^ cfg.ownerBits } (some ⟨q, w, false⟩))
      toMem fromMem := by
  have hline := hr.directory.line w hw hv
  have hs := hline
  simp only [LineOk, hm] at hs
  have hdir : Directory cfg v
      (h.put w { h.lines.line w with owner := (h.sharers w).length % 2 ^ cfg.ownerBits } (some ⟨q, w, false⟩)) := by
    refine hr.directory.write hw hv rfl (fun way hne => ?_) (fun _ _ => rfl) (fun t tag k _ => .refl _ _)
      (fun _ => ?_) fun hn => ?_
    · simp [CacheSet.put, hne]
    · simpa [CacheSet.put, LineOk, hm] using hs
    · exact absurd hv (by simpa [CacheSet.Valid, CacheSet.put] using hn)
  have hfwd (t : Fin n) : ∀ m ∈ (if t ∈ h.sharers w then
      [Noc2.forward .inv (h.lines.tag w) (BitVec.allOnes 4) (h.lines.line w).di] else []), m.isForward = true := by
    intro m hm
    split at hm
    · rw [List.mem_singleton.1 hm]
      rfl
    · cases hm
  have hmem (t : Fin n) : t ∈ h.sharers w ↔ h.dir w t = true := by simp [CacheSet.sharers]
  refine hr.forward hfwd ⟨q, w, false⟩ rfl rfl hdir ⟨.inv, (h.sharers w).toFinset⟩
    ⟨rfl, hg, hw, ?_, fun _ => ⟨?_, ?_, ?_⟩, fun hp => absurd rfl hp, ?_, ?_⟩
  · simpa [CacheSet.Valid, CacheSet.put] using hv
  · simpa [CacheSet.put] using hm
  · simp [CacheSet.put, List.toFinset_card_of_nodup (sharers_nodup w)]
  · intro t ht k
    have hn : ¬h.dir w t = true := by simpa [hmem] using ht
    rw [View.line_passed_forwards (hfwd t)]
    have hmem' : t ∉ h.sharers w := by simpa using ht
    obtain ⟨-, -, hrd, hft⟩ := hs t k
    refine ⟨fun h => hn (hrd h).1, fun h => hn (hft ?_).1⟩
    simpa [View.fetches_passed, hmem', CacheSet.put] using h
  · intro t ht
    have hmem' : t ∈ h.sharers w := by simpa using ht
    refine .inl ⟨⟨(v t).noc2, BitVec.allOnes 4, ?_, (hr.still t).1, by rw [if_pos rfl]⟩, (hr.still t).2⟩
    simp [View.passed, hmem', CacheSet.put]
  · intro t ht
    have hmem' : t ∉ h.sharers w := by simpa using ht
    simpa [hmem', View.passed_nil] using hr.still t

theorem callBack (hr : Ready cfg v h toMem fromMem q) {w : Nat} (hg : q.type ≠ .wbguard) (hw : w < cfg.ways)
    (hv : h.Valid w) (hm : (h.lines.line w).mesi = .e) {type : FwdType} (ht : type = .load ∨ type = .store)
    {o : Fin n} (ho : (h.lines.line w).owner = o.val) :
    Safe cfg
      (fun t => (v t).passed
        (if t ∈ [o] then [.forward type (h.lines.tag w) (h.lines.line w).subline (h.lines.line w).di] else []) false)
      (h.setEntry (some ⟨q, w, false⟩)) toMem fromMem := by
  have hs := hr.directory.line w hw hv
  simp only [LineOk, hm] at hs
  obtain ⟨hdi, h0, o', ho', hx⟩ := hs
  obtain rfl : o = o' := Fin.ext (ho.symm.trans ho')
  have hti : type ≠ .inv := by rcases ht with rfl | rfl <;> simp
  have hfwd (t : Fin n) : ∀ m ∈ (if t ∈ [o] then
      [Noc2.forward type (h.lines.tag w) (h.lines.line w).subline (h.lines.line w).di] else []), m.isForward = true := by
    intro m hm
    split at hm
    · rw [List.mem_singleton.1 hm]
      rfl
    · cases hm
  have hd : Directory cfg v (h.setEntry (some ⟨q, w, false⟩)) := hr.directory.congr rfl rfl
  refine hr.forward hfwd ⟨q, w, false⟩ rfl rfl hd ⟨type, {o}⟩
    ⟨rfl, hg, hw, hv, fun hp => absurd hp hti, fun _ => ⟨o, rfl, .inl ⟨hm, ho⟩⟩, ?_, ?_⟩
  · intro t ht
    obtain rfl := Finset.mem_singleton.1 ht
    refine .inl ⟨⟨(v t).noc2, (h.lines.line w).subline, ?_, (hr.still t).1, ?_⟩, (hr.still t).2⟩
    · simp [View.passed, CacheSet.setEntry]
    · rw [if_neg hti]
      refine ⟨hdi, h0, fun k hrd => ((hx t k).2 (.inl ?_)).2⟩
      rwa [View.line_passed_forwards (hfwd t)] at hrd
  · intro t ht
    have hto : t ≠ o := by simpa using ht
    simpa [hto, View.passed_nil] using hr.still t

/-- Nothing is asked of the memory when a request comes to pipeline 1. -/
theorem no_load (hr : Ready cfg v h toMem fromMem q) {mem : List ToMem} (hm : ∀ tag, .load tag ∉ mem) :
    ¬((∃ tag, .load tag ∈ toMem ++ mem) ∨ ∃ data, .load data ∈ fromMem) := by
  have ha := hr.awaited
  simp only [Coherence.awaited, Nat.add_eq_zero_iff, List.countP_eq_zero, List.length_eq_zero_iff] at ha
  rintro (⟨tag, h⟩ | ⟨data, h⟩)
  · rcases List.mem_append.1 h with h | h
    · exact ha.1 _ h rfl
    · exact hm tag h
  · simp [ha.2] at h

/-- A line is fetched. -/
theorem fetch (hr : Ready cfg v h toMem fromMem q) (hd : Directory cfg v h') (ha : Absent cfg h' q.tag)
    (hg : q.type ≠ .wbguard) {w : Nat} (hw : w < cfg.ways) (he : h'.mshr = some ⟨q, w, false⟩) (hv : ¬h'.Valid w)
    {mem : List ToMem} (hm : mem.countP ToMem.asks = 1) : Safe cfg v h' (toMem ++ mem) fromMem :=
  hr.wait hd he rfl fun _ => ⟨by rw [awaited_append, hr.awaited, hm], rfl, hg, fun _ => ⟨hw, hv, ha⟩⟩

/-- A store goes to the memory. -/
theorem ncStore (hr : Ready cfg v h toMem fromMem q) (hq : q.type = .ncStore) {w : Nat} (he : h'.mshr = some ⟨q, w, false⟩)
    (hd : Directory cfg v h') : Safe cfg v h' (toMem ++ [.ncStore q.tag q.subline q.merge]) fromMem :=
  hr.wait hd he rfl fun _ => ⟨by rw [awaited_append, hr.awaited]; rfl, rfl, by simp [hq],
    fun hl => absurd hl (hr.no_load (by simp))⟩

/-- A request that no MSHR waits for is carried out. -/
theorem done_other (hr : Ready cfg v h toMem fromMem q) (hn : ∀ a, (q.asks a || q.guards a) = false) (he : h'.mshr = none)
    (ms : List Noc2) (hms : ∀ m ∈ ms, m.isForward = false ∧ ∀ a, m.answers a = false ∧ m.givesInstr a = false)
    (hd : Directory cfg v h') {mem : List ToMem} (hm : mem.countP ToMem.asks = 0) :
    Safe cfg (Function.update v q.src ((v q.src).passed ms true)) h' (toMem ++ mem) fromMem := by
  obtain ⟨qs, hq⟩ := hr.head
  refine hr.done he (fun m h => (hms m h).1) ((hr.tile q.src).other hq hn fun m h a => ((hms m h).2 a).1)
    (hd.nothing_given (fun m h a ha => ?_) fun m h a => ((hms m h).2 a).2) hm
  simp [((hms m h).2 a).1] at ha

/-- A request is answered without a copy of the line. -/
theorem done_read (hr : Ready cfg v h toMem fromMem q) (ha : q.asks q.addr = true) (he : h'.mshr = none) (r : Noc2)
    (hf : r.isForward = false) (hra : ∀ a, r.answers a = (q.addr == a)) (hi : r.mesi = .i) (hg : ∀ a, r.givesInstr a = false)
    (hby : ∀ m : Slot, m.accepts q.type = true → m.answeredBy r = true) (hd : Directory cfg v h') {mem : List ToMem}
    (hm : mem.countP ToMem.asks = 0) :
    Safe cfg (Function.update v q.src ((v q.src).passed [r] true)) h' (toMem ++ mem) fromMem := by
  obtain ⟨qs, hq⟩ := hr.head
  refine hr.done he ?_ ((hr.tile q.src).answer hq ha hra hby) (hd.nothing_given ?_ ?_) hm
  · simpa using hf
  · simp [hi]
  · simpa using hg

/-- The MSHR of a request is one of data. -/
theorem mshrType_ne (hr : Ready cfg v h toMem fromMem q) (ha : q.asks q.addr = true) : q.mshrType ≠ .ifill := by
  obtain ⟨qs, hq⟩ := hr.head
  obtain ⟨m, -, hok, -, ht⟩ := (hr.tile q.src).mshr_of_head hq ha
  rw [ht]
  exact hok.mshrType_ne

theorem guardGoes (hr : Ready cfg v h toMem fromMem q) {w : Nat} (hg : q.type = .wbguard)
    (hh : Absent cfg h q.tag ∨ Hit cfg h q.tag w)
    (hn : ¬(Hit cfg h q.tag w ∧ (h.lines.line w).mesi = .e ∧ (h.lines.line w).subline.getLsbD q.subline.toNat = true ∧
      (h.lines.line w).owner = q.src.val)) :
    Safe cfg (Function.update v q.src ((v q.src).passed [] true)) (h.setEntry none) (toMem ++ []) fromMem := by
  obtain ⟨qs, hq⟩ := hr.head
  have hd : Directory cfg v (h.setEntry none) := hr.directory.congr rfl rfl
  refine hr.done rfl (by simp) ((hr.tile q.src).guard hq hg ?_) (hd.nothing_given (by simp) (by simp)) List.countP_nil
  rcases hh with ha | hh
  · exact (hr.directory.absent q.tag ha q.src q.subline).2.2
  · have hl := hr.directory.line_of_hit hh
    unfold LineOk at hl
    cases hm : (h.lines.line w).mesi with
    | i =>
        simp only [hm] at hl
        exact (hl q.src q.subline).2.2
    | s =>
        simp only [hm] at hl
        exact (hl q.src q.subline).2.1
    | e =>
        simp only [hm] at hl
        obtain ⟨-, -, o, ho, hx⟩ := hl
        intro hb
        obtain ⟨ht, hs⟩ := (hx q.src q.subline).2 (.inr hb)
        exact hn ⟨hh, hm, hs, by rw [ho, ht]⟩
    | b => simp only [hm] at hl

end Ready

theorem getLsbD_or : ∀ (s : BitVec 4) (k k' : BitVec 2),
    (s ||| 1#4 <<< k.toNat).getLsbD k'.toNat = (s.getLsbD k'.toNat || k == k') := by
  decide

theorem or_ne_zero : ∀ (s : BitVec 4) (k : BitVec 2), s ||| 1#4 <<< k.toNat ≠ 0 := by decide

namespace Ready

variable {w : Nat}

/-- A line goes to its owner, who may be new. -/
theorem done_grant (hr : Ready cfg v h toMem fromMem q) (hh : Hit cfg h q.tag w)
    (ht : q.type = .load ∨ q.type = .store ∨ q.type = .lr) (hc : q.cacheType = .data)
    (hm : (h.lines.line w).mesi = .i ∨
      (h.lines.line w).mesi = .e ∧ (h.lines.line w).owner = q.src.val ∧ (h.lines.line w).di = .data)
    {l : L2.Line} (hl : l.mesi = .e ∧ l.di = .data ∧ l.owner = q.src.val ∧ l.vd = (h.lines.line w).vd ∧
      l.subline = CacheSet.addSubline q (h.lines.line w)) (d : List Block) :
    Safe cfg
      (Function.update v q.src
        ((v q.src).passed [.dataAck q.mshrType q.tag q.subline (CacheSet.grantMesi q.type) d] true))
      (h.put w l none) (toMem ++ []) fromMem := by
  obtain ⟨hle, hld, hlo, hlv, hls⟩ := hl
  obtain ⟨qs, hq⟩ := hr.head
  have hd : q.type.demand = true := by rcases ht with ht | ht | ht <;> rw [ht] <;> rfl
  have ha : q.asks q.addr = true := asks_of_demand hd hc
  have hmt := hr.mshrType_ne ha
  have hans (a : Addr) :
      (Noc2.dataAck q.mshrType q.tag q.subline (CacheSet.grantMesi q.type) d).answers a = (q.addr == a) := by
    simp [Noc2.answers, hmt, Request.addr]
  have hins (a : Addr) :
      (Noc2.dataAck q.mshrType q.tag q.subline (CacheSet.grantMesi q.type) d).givesInstr a = false := by
    simp [Noc2.givesInstr, hmt]
  -- of the line only its owner has anything, in the sublines that the directory has
  have hline : ∀ t k, ¬(v t).Fetches (q.tag, k) ∧ (((v t).line (q.tag, k)).Reads ∨ (v t).Backs (q.tag, k) →
      t = q.src ∧ (h.lines.line w).subline.getLsbD k.toNat = true) := by
    have hl := hr.directory.line_of_hit hh
    intro t k
    rcases hm with hm | ⟨hm, ho, -⟩
    · obtain ⟨h1, h2, h3⟩ := hl.gone hm t k
      exact ⟨h2, fun h => (h.elim h1 h3).elim⟩
    · simp only [LineOk, hm] at hl
      obtain ⟨-, -, o, ho', hx⟩ := hl
      obtain rfl : q.src = o := Fin.ext (ho.symm.trans ho')
      exact hx t k
  suffices hd : Directory cfg _ (h.put w l none) from
    hr.done rfl (by simp [Noc2.isForward]) ((hr.tile q.src).answer hq ha hans fun m => (Slot.answeredBy_grant ht · _ _ _ _))
      hd List.countP_nil
  refine hr.directory.given hh (fun a h => ?_) (fun a h => ?_) rfl (fun way hne => ?_) (fun _ _ => rfl) ?_ ?_
  · rw [hans] at h
    rw [← eq_of_beq h]
    rfl
  · rw [hins] at h
    cases h
  · simp [CacheSet.put, hne]
  · have := hh.valid
    simpa [CacheSet.Valid, CacheSet.put, hlv] using this
  · simp only [CacheSet.put, Function.update_self, LineOk, hle, hld, hlo, hls, CacheSet.addSubline, hc, L2.addrSubline]
    refine ⟨trivial, or_ne_zero _ _, q.src, rfl, fun t k => ⟨?_, ?_⟩⟩
    · rw [fetches_given, hins]
      simpa using (hline t k).1
    · rw [reads_given, backs_given, hans, getLsbD_or]
      rintro ((h | ⟨rfl, h, -⟩) | h)
      · obtain ⟨h1, h2⟩ := (hline t k).2 (.inl h)
        exact ⟨h1, by simp [h2]⟩
      · have := eq_of_beq h
        simp only [Request.addr, Prod.mk.injEq, true_and] at this
        exact ⟨rfl, by simp [this]⟩
      · obtain ⟨h1, h2⟩ := (hline t k).2 (.inr h)
        exact ⟨h1, by simp [h2]⟩

/-- A line goes to one more tile that shares it, as data or as instructions. -/
theorem done_share (hr : Ready cfg v h toMem fromMem q) (hh : Hit cfg h q.tag w) (ht : q.type = .load)
    (hm : (h.lines.line w).mesi = .i ∨ (h.lines.line w).mesi = .s ∧ (h.lines.line w).di = q.cacheType)
    {l : L2.Line} (hl : l.mesi = .s ∧ l.di = q.cacheType ∧ l.vd = (h.lines.line w).vd) (d : List Block) :
    Safe cfg (Function.update v q.src ((v q.src).passed [.dataAck q.mshrType q.tag q.subline .s d] true))
      { h.put w l none with dir := Function.update h.dir w (Function.update (h.dir w) q.src true) } (toMem ++ []) fromMem := by
  obtain ⟨hle, hld, hlv⟩ := hl
  obtain ⟨qs, hq⟩ := hr.head
  have hline : ∀ t k, ¬((v t).line (q.tag, k)).Writes ∧ ¬(v t).Backs (q.tag, k) ∧
      (((v t).line (q.tag, k)).Reads → h.dir w t = true ∧ q.cacheType = .data) ∧
      ((v t).Fetches (q.tag, k) → h.dir w t = true ∧ q.cacheType = .ins) := by
    have hl := hr.directory.line_of_hit hh
    rcases hm with hm | ⟨hm, hdi⟩
    · intro t k
      obtain ⟨h1, h2, h3⟩ := hl.gone hm t k
      exact ⟨fun h => h1 h.reads, h3, fun h => absurd h h1, fun h => absurd h h2⟩
    · simpa [LineOk, hm, hdi] using hl
  have hdir (t : Fin n) (h0 : h.dir w t = true) : Function.update (h.dir w) q.src true t = true := by
    by_cases hts : t = q.src <;> simp [hts, h0]
  have hdone (hans : ∀ a, (Noc2.dataAck q.mshrType q.tag q.subline .s d).answers a = true → a = q.addr ∧ q.cacheType = .data)
      (hins : ∀ a, (Noc2.dataAck q.mshrType q.tag q.subline .s d).givesInstr a = true → a.1 = q.tag ∧ q.cacheType = .ins)
      (hloc : Local q.src ((v q.src).passed [.dataAck q.mshrType q.tag q.subline .s d] true)) :
      Safe cfg (Function.update v q.src ((v q.src).passed [.dataAck q.mshrType q.tag q.subline .s d] true))
        { h.put w l none with dir := Function.update h.dir w (Function.update (h.dir w) q.src true) } (toMem ++ []) fromMem := by
    suffices hd : Directory cfg _
        { h.put w l none with dir := Function.update h.dir w (Function.update (h.dir w) q.src true) } from
      hr.done rfl (by simp [Noc2.isForward]) hloc hd List.countP_nil
    refine hr.directory.given hh (fun a h => ?_) (fun a h => (hins a h).1) rfl (fun way hne => ?_) (fun way hne => ?_) ?_ ?_
    · rw [(hans a h).1]
      rfl
    · simp [CacheSet.put, hne]
    · simp [hne]
    · have := hh.valid
      simpa [CacheSet.Valid, CacheSet.put, hlv] using this
    · simp only [CacheSet.put, Function.update_self, LineOk, hle, hld]
      intro t k
      obtain ⟨hw, hb, hrd, hft⟩ := hline t k
      refine ⟨fun h => ?_, fun h => hb (backs_given.1 h), fun h => ?_, fun h => ?_⟩
      · rcases writes_given.1 h with h | ⟨-, -, h⟩
        · exact hw h
        · cases h
      · rcases reads_given.1 h with h' | ⟨rfl, h', -⟩
        · exact ⟨hdir t (hrd h').1, (hrd h').2⟩
        · exact ⟨by simp, (hans _ h').2⟩
      · rcases fetches_given.1 h with h' | ⟨rfl, h'⟩
        · exact ⟨hdir t (hft h').1, (hft h').2⟩
        · exact ⟨by simp, (hins _ h').2⟩
  cases hc : q.cacheType with
  | data =>
      have ha : q.asks q.addr = true := asks_of_demand (by rw [ht]; rfl) hc
      have hmt := hr.mshrType_ne ha
      have hans (a : Addr) : (Noc2.dataAck q.mshrType q.tag q.subline .s d).answers a = (q.addr == a) := by
        simp [Noc2.answers, hmt, Request.addr]
      refine hdone (fun a h => ⟨?_, hc⟩) (fun a h => ?_)
        ((hr.tile q.src).answer hq ha hans fun m => (Slot.answeredBy_share ht · _ _ _ _))
      · rw [hans] at h
        exact (eq_of_beq h).symm
      · simp [Noc2.givesInstr, hmt] at h
  | ins =>
      have hmt := hr.typed.instr hc
      have hans (a : Addr) : (Noc2.dataAck q.mshrType q.tag q.subline .s d).answers a = false := by simp [Noc2.answers, hmt]
      refine hdone (fun a h => ?_) (fun a h => ⟨?_, hc⟩)
        ((hr.tile q.src).other hq (fun a => by simp [Request.asks, Request.guards, hc, ht]) ?_)
      · rw [hans] at h
        cases h
      · simp only [Noc2.givesInstr, hmt, Bool.and_eq_true, beq_iff_eq] at h
        exact h.1.2.symm
      · simpa using hans

end Ready

/-! ## A pass -/

/-- What the system holds for the tiles after a pass. -/
def afterPass (v : Fin n → View n) (h' : CacheSet n) (q : Request n) (out : Out) (t : Fin n) : View n :=
  (v t).passed (System.sent out t) (decide (t = q.src) && h'.mshr.isNone)

theorem afterPass_wait {out : Out} (he : h'.mshr.isSome = true) (ho : out.tiles = []) : afterPass v h' q out = v := by
  funext t
  simp [afterPass, System.sent, ho, Option.isNone_eq_false_iff.2 he, View.passed_nil]

theorem afterPass_forward {out : Out} (he : h'.mshr.isSome = true) :
    afterPass v h' q out = fun t => (v t).passed (System.sent out t) false := by
  funext t
  simp [afterPass, Option.isNone_eq_false_iff.2 he]

theorem afterPass_done {out : Out} (he : h'.mshr = none) (ho : out.tiles = []) :
    afterPass v h' q out = Function.update v q.src ((v q.src).passed [] true) := by
  funext t
  by_cases ht : t = q.src
  · subst ht
    simp [afterPass, System.sent, ho, he]
  · simp [afterPass, System.sent, ho, ht, View.passed_nil]

theorem afterPass_answer {out : Out} (he : h'.mshr = none) {r : Noc2} (ho : out.tiles = [(q.src.val, r)]) :
    afterPass v h' q out = Function.update v q.src ((v q.src).passed [r] true) := by
  funext t
  by_cases ht : t = q.src
  · subst ht
    simp [afterPass, System.sent, ho, he]
  · have hv : ¬q.src.val = t.val := fun h => ht (Fin.ext h.symm)
    simp [afterPass, System.sent, ho, ht, hv, View.passed_nil]

theorem absent_put {w : Nat} {l : L2.Line} {tag : Nat} (ha : Absent cfg h tag) (hl : l.vd = .inval) (e : Option (Entry n)) :
    Absent cfg (h.put w l e) tag := by
  intro way hway
  by_cases hne : way = w
  · subst hne
    simp [CacheSet.put, L2.LineSet.tagHitWay, hl]
  · simpa [CacheSet.put, L2.LineSet.tagHitWay, hne] using ha way hway

theorem not_valid_put {w : Nat} {l : L2.Line} (hl : l.vd = .inval) (e : Option (Entry n)) : ¬(h.put w l e).Valid w := by
  simp [CacheSet.Valid, CacheSet.put, hl]

/-- A request that goes through pipeline 1 keeps the invariant. -/
theorem Ready.pass (hr : Ready cfg v h toMem fromMem q) {w : Nat} {out : Out} (hp : Passed cfg h q w h' out) :
    Safe cfg (afterPass v h' q out) h' (toMem ++ out.mem) fromMem := by
  have hd0 := hr.directory
  have hnone {t : MsgType} (hq : q.type = t) (ht : t.demand = false ∧ t ≠ .wbguard) (a : Addr) :
      (q.asks a || q.guards a) = false := by
    simp [Request.asks, Request.guards, hq, ht]
  cases hp with
  | guardWaits hq hh hm hs ho =>
      rw [afterPass_wait rfl rfl]
      have hd : Directory cfg v (h.setEntry (some ⟨q, w, false⟩)) := hd0.congr rfl rfl
      exact hr.wait hd rfl rfl fun h0 => absurd List.countP_nil h0
  | guardGoes hq hh hn =>
      rw [afterPass_done rfl rfl]
      exact hr.guardGoes hq hh hn
  | casFails hq =>
      have hd : Directory cfg v (h.setEntry none) := hd0.congr rfl rfl
      rw [afterPass_done rfl rfl]
      exact hr.done_other (hnone hq (by simp [MsgType.demand])) rfl [] (by simp) hd List.countP_nil
  | invalidate hg hw hv hm =>
      rw [afterPass_forward rfl]
      simpa [sent_map (sharers_nodup w)] using hr.invalidate hg hw hv hm
  | callBack type hg hw hv hm ht =>
      have hl := hd0.line w hw hv
      simp only [LineOk, hm] at hl
      obtain ⟨-, -, o, ho, -⟩ := hl
      have := hr.callBack hg hw hv hm ht ho
      rw [afterPass_forward rfl, ho]
      simpa only [← sent_map (List.nodup_singleton o) _ [], List.map_singleton, List.append_nil] using this
  | replace ha hg hw hv hm =>
      rw [afterPass_wait rfl rfl]
      have hd : Directory cfg v (h.put w { h.lines.line w with vd := .inval } (some ⟨q, w, false⟩)) := hd0.put_vd hw hv hm _ _
      refine hr.fetch hd (absent_put ha rfl _) hg hw rfl (not_valid_put rfl _) ?_
      split <;> rfl
  | fetch ha hg hw hv =>
      rw [afterPass_wait rfl rfl]
      have hd : Directory cfg v (h.setEntry (some ⟨q, w, false⟩)) := hd0.congr rfl rfl
      exact hr.fetch hd ha hg hw rfl hv rfl
  | ncStoreMiss ha hq =>
      rw [afterPass_wait rfl rfl]
      have hd : Directory cfg v (h.setEntry (some ⟨q, w, false⟩)) := hd0.congr rfl rfl
      exact hr.ncStore hq rfl hd
  | ncStoreHit hh hq hm hv =>
      rw [afterPass_wait rfl rfl]
      exact hr.ncStore hq rfl (hd0.put_vd hh.1 hh.valid hm _ _)
  | ncBack hh hq hm hv =>
      rw [afterPass_wait rfl rfl]
      have hd : Directory cfg v (h.put w { h.lines.line w with vd := .clean } (some ⟨q, w, true⟩)) :=
        hd0.put_vd hh.1 hh.valid hm _ _
      exact hr.wait hd rfl rfl fun h0 => absurd rfl h0
  | ncStoreDone ha hq =>
      have hd : Directory cfg v (h.setEntry none) := hd0.congr rfl rfl
      have hask : q.asks q.addr = true := asks_of_demand (by rw [hq]; rfl) (hr.typed.data (by simp [hq]))
      have hst : q.mshrType = .st := by
        obtain ⟨qs, hqs⟩ := hr.head
        obtain ⟨m, -, hok, hac, ht⟩ := (hr.tile q.src).mshr_of_head hqs hask
        simp only [hq, Slot.accepts, Bool.and_eq_true, Bool.not_eq_true'] at hac
        rw [ht, hok.type]
        simp [hac]
      rw [afterPass_answer rfl rfl]
      exact hr.done_read hask rfl (.nodataAck q.mshrType q.tag q.subline) rfl
        (fun a => by simp [Noc2.answers, hst, Request.addr]) rfl (fun a => rfl)
        (fun m hm => by simpa [Slot.answeredBy, hq] using hm) hd List.countP_nil
  | cmoMiss op ha hq =>
      have hd : Directory cfg v (h.setEntry none) := hd0.congr rfl rfl
      rw [afterPass_answer rfl rfl]
      exact hr.done_other (hnone hq (by simp [MsgType.demand])) rfl [.nodataAck q.mshrType q.tag q.subline]
        (by simp [Noc2.isForward, Noc2.answers, Noc2.givesInstr, hr.typed.cmo op hq]) hd List.countP_nil
  | cmoDone op hh hq hm =>
      rw [afterPass_answer rfl rfl]
      refine hr.done_other (hnone hq (by simp [MsgType.demand])) rfl [.nodataAck q.mshrType q.tag q.subline]
        (by simp [Noc2.isForward, Noc2.answers, Noc2.givesInstr, hr.typed.cmo op hq]) (hd0.put_vd hh.1 hh.valid hm _ _) ?_
      dsimp only
      split <;> rfl
  | ncLoadDone hh hq hm hv =>
      have hask : q.asks q.addr = true := asks_of_demand (by rw [hq]; rfl) (hr.typed.data (by simp [hq]))
      have hmt := hr.mshrType_ne hask
      rw [afterPass_answer rfl rfl]
      exact hr.done_read hask rfl (.dataAck q.mshrType q.tag q.subline .i [h.data w q.subline]) rfl
        (fun a => by simp [Noc2.answers, hmt, Request.addr]) rfl
        (fun a => by simp [Noc2.givesInstr, hmt]) (fun m hm => Slot.answeredBy_read (.inl hq) hm _ _ _ _)
        (hd0.put_vd hh.1 hh.valid hm _ _) List.countP_nil
  | grant hh ht hc hm =>
      rw [afterPass_answer rfl rfl]
      refine hr.done_grant hh ht hc (.inl hm) ?_ _
      exact ⟨rfl, rfl, rfl, rfl, rfl⟩
  | grantOwner hh ht hc hm ho =>
      have hdi : (h.lines.line w).di = .data := by
        have hl := hd0.line_of_hit hh
        simp only [LineOk, hm] at hl
        exact hl.1
      rw [afterPass_answer rfl rfl]
      refine hr.done_grant hh ht (hc.trans hdi) (.inr ⟨hm, ho, hdi⟩) ?_ _
      exact ⟨hm, hdi, ho, rfl, rfl⟩
  | share l hh ht hm =>
      rw [afterPass_answer rfl rfl]
      rcases hm with ⟨hm, hc, rfl⟩ | ⟨hm, hc, rfl⟩
      · refine hr.done_share hh ht (.inr ⟨hm, hc.symm⟩) ?_ _
        exact ⟨hm, hc.symm, rfl⟩
      · refine hr.done_share hh ht (.inl hm) ?_ _
        exact ⟨rfl, hc.symm, rfl⟩
  | readBlock hh hq hm =>
      have hdt : q.type.demand = true ∧ q.type ≠ .load := by
        cases ht : q.type <;> simp [ht, MsgType.isP1] at hq <;> simp [MsgType.demand]
      have hask : q.asks q.addr = true := asks_of_demand hdt.1 (hr.typed.data hdt.2)
      have hmt := hr.mshrType_ne hask
      rw [afterPass_answer rfl rfl]
      refine hr.done_read hask ?_ (.dataAck q.mshrType q.tag q.subline .i [h.data w q.subline]) rfl
        (fun a => by simp [Noc2.answers, hmt, Request.addr]) rfl
        (fun a => by simp [Noc2.givesInstr, hmt]) (fun m hm => Slot.answeredBy_read (.inr hq) hm _ _ _ _)
        ?_ List.countP_nil
      · rfl
      · exact hd0.congr rfl rfl
  | writeBlock hh hq hm =>
      have hn : ∀ a, (q.asks a || q.guards a) = false := by
        rcases hq with hq | ⟨op, hq⟩
        · exact hnone hq (by simp [MsgType.demand])
        · exact hnone hq (by simp [MsgType.demand])
      have hd : Directory cfg v (h.put w { h.lines.line w with vd := .dirty, di := .data } none) :=
        hd0.put_gone hh.1 hh.valid hm { h.lines.line w with vd := .dirty, di := .data } hm none
      rw [afterPass_done rfl rfl]
      refine hr.done_other hn ?_ [] (by simp) ?_ List.countP_nil
      · rfl
      · exact hd.congr rfl rfl

end OpenPiton.Coherence
