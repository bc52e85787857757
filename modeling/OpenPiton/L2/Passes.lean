import OpenPiton.L2.CacheSet

namespace OpenPiton.L2

variable {n : Nat}

/-- The types that a request of a tile has in pipeline 1. -/
def MsgType.inPipe : MsgType → Bool
  | .load | .ncLoad | .store | .ncStore | .lr | .wbguard | .rvcmo _ | .casP1 | .casP2y | .casP2n | .atomicP1 _
  | .atomicP2 _ => true
  | _ => false

/-- Instructions are only loaded. -/
structure Request.Ok (q : Request n) : Prop where
  inPipe : q.type.inPipe = true
  data : q.type ≠ .load → q.cacheType = .data

namespace CacheSet

def Hit (cfg : SetCfg n) (h : CacheSet n) (tag way : Nat) : Prop := way < cfg.ways ∧ h.lines.tagHitWay tag way = true

def Absent (cfg : SetCfg n) (h : CacheSet n) (tag : Nat) : Prop := ∀ way < cfg.ways, h.lines.tagHitWay tag way = false

def Valid (h : CacheSet n) (way : Nat) : Prop := (h.lines.line way).vd = .clean ∨ (h.lines.line way).vd = .dirty

theorem Hit.valid {cfg : SetCfg n} {h : CacheSet n} {tag way : Nat} (hh : Hit cfg h tag way) : h.Valid way := by
  have := hh.2
  simp [LineSet.tagHitWay] at this
  exact this.2

theorem Hit.tag {cfg : SetCfg n} {h : CacheSet n} {tag way : Nat} (hh : Hit cfg h tag way) : h.lines.tag way = tag := by
  have := hh.2
  simp [LineSet.tagHitWay] at this
  exact this.1

theorem Valid.hit {cfg : SetCfg n} {h : CacheSet n} {way : Nat} (hv : h.Valid way) (hw : way < cfg.ways) :
    Hit cfg h (h.lines.tag way) way := by
  refine ⟨hw, ?_⟩
  rcases hv with hv | hv <;> simp [LineSet.tagHitWay, hv]

/-- The set with one line and the entry of the MSHR file written. -/
def put (h : CacheSet n) (way : Nat) (l : Line) (e : Option (Entry n)) : CacheSet n :=
  { h with lines := { h.lines with line := Function.update h.lines.line way l }, mshr := e }

def setEntry (h : CacheSet n) (e : Option (Entry n)) : CacheSet n := { h with mshr := e }

/-- The state that a granted line comes with. -/
def grantMesi (t : MsgType) : L15.Mesi := if t = .load then .e else .m

/-- The line with one more subline above. -/
def addSubline (q : Request n) (l : Line) : BitVec 4 := l.subline ||| addrSubline q.cacheType q.subline

/-- What a request does that goes through pipeline 1, by the way that it goes to. -/
inductive Passed (cfg : SetCfg n) (h : CacheSet n) (q : Request n) (w : Nat) : CacheSet n → Out → Prop
  /-- A guard whose write-back has yet to come. -/
  | guardWaits : q.type = .wbguard → Hit cfg h q.tag w → (h.lines.line w).mesi = .e →
      (h.lines.line w).subline.getLsbD q.subline.toNat = true → (h.lines.line w).owner = q.src.val →
      Passed cfg h q w (h.setEntry (some ⟨q, w, false⟩)) {}
  | guardGoes : q.type = .wbguard → Absent cfg h q.tag ∨ Hit cfg h q.tag w →
      ¬(Hit cfg h q.tag w ∧ (h.lines.line w).mesi = .e ∧ (h.lines.line w).subline.getLsbD q.subline.toNat = true ∧
        (h.lines.line w).owner = q.src.val) →
      Passed cfg h q w (h.setEntry none) {}
  /-- A compare and swap that found another value. -/
  | casFails : q.type = .casP2n → Passed cfg h q w (h.setEntry none) {}
  /-- A line that is shared above is invalidated there. -/
  | invalidate : q.type ≠ .wbguard → w < cfg.ways → h.Valid w → (h.lines.line w).mesi = .s →
      Passed cfg h q w
        (h.put w { h.lines.line w with owner := (h.sharers w).length % 2 ^ cfg.ownerBits } (some ⟨q, w, false⟩))
        { tiles := (h.sharers w).map fun t =>
            (t.val, .forward .inv (h.lines.tag w) (BitVec.allOnes 4) (h.lines.line w).di) }
  /-- A line that is owned above is called back. -/
  | callBack (type : FwdType) : q.type ≠ .wbguard → w < cfg.ways → h.Valid w → (h.lines.line w).mesi = .e →
      type = .load ∨ type = .store →
      Passed cfg h q w (h.setEntry (some ⟨q, w, false⟩))
        { tiles := [((h.lines.line w).owner, .forward type (h.lines.tag w) (h.lines.line w).subline (h.lines.line w).di)] }
  /-- A line makes room. -/
  | replace : Absent cfg h q.tag → q.type ≠ .wbguard → w < cfg.ways → h.Valid w → (h.lines.line w).mesi = .i →
      Passed cfg h q w (h.put w { h.lines.line w with vd := .inval } (some ⟨q, w, false⟩))
        { mem := .load q.tag ::
            if (h.lines.line w).vd = .dirty then [.store (h.lines.tag w) (h.data w)] else [] }
  | fetch : Absent cfg h q.tag → q.type ≠ .wbguard → w < cfg.ways → ¬h.Valid w →
      Passed cfg h q w (h.setEntry (some ⟨q, w, false⟩)) { mem := [.load q.tag] }
  | ncStoreMiss : Absent cfg h q.tag → q.type = .ncStore →
      Passed cfg h q w (h.setEntry (some ⟨q, w, false⟩)) { mem := [.ncStore q.tag q.subline q.merge] }
  | ncStoreDone : Absent cfg h q.tag → q.type = .ncStore →
      Passed cfg h q w (h.setEntry none) { tiles := [(q.src.val, .nodataAck q.mshrType q.tag q.subline)] }
  | cmoMiss (op : L15.CmoOp) : Absent cfg h q.tag → q.type = .rvcmo op →
      Passed cfg h q w (h.setEntry none) { tiles := [(q.src.val, .nodataAck q.mshrType q.tag q.subline)] }
  | cmoDone (op : L15.CmoOp) : Hit cfg h q.tag w → q.type = .rvcmo op → (h.lines.line w).mesi = .i →
      Passed cfg h q w (h.put w { h.lines.line w with vd := .inval } none)
        { tiles := [(q.src.val, .nodataAck q.mshrType q.tag q.subline)]
          mem := if (h.lines.line w).vd = .dirty ∧ op ≠ .inval then [.store q.tag (h.data w)] else [] }
  | ncLoadDone : Hit cfg h q.tag w → q.type = .ncLoad → (h.lines.line w).mesi = .i → (h.lines.line w).vd = .clean →
      Passed cfg h q w (h.put w { h.lines.line w with vd := .inval } none)
        { tiles := [(q.src.val, .dataAck q.mshrType q.tag q.subline .i [h.data w q.subline])] }
  /-- A dirty line is written back before it goes. -/
  | ncBack : Hit cfg h q.tag w → q.type = .ncLoad ∨ q.type = .ncStore → (h.lines.line w).mesi = .i →
      (h.lines.line w).vd = .dirty →
      Passed cfg h q w (h.put w { h.lines.line w with vd := .clean } (some ⟨q, w, true⟩))
        { mem := [.store q.tag (h.data w)] }
  | ncStoreHit : Hit cfg h q.tag w → q.type = .ncStore → (h.lines.line w).mesi = .i → (h.lines.line w).vd = .clean →
      Passed cfg h q w (h.put w { h.lines.line w with vd := .inval } (some ⟨q, w, false⟩))
        { mem := [.ncStore q.tag q.subline q.merge] }
  /-- A line goes to its only tile. -/
  | grant : Hit cfg h q.tag w → q.type = .load ∨ q.type = .store ∨ q.type = .lr → q.cacheType = .data →
      (h.lines.line w).mesi = .i →
      Passed cfg h q w
        (h.put w
          { h.lines.line w with
            mesi := .e, di := .data, owner := q.src.val, subline := addSubline q (h.lines.line w) } none)
        { tiles := [(q.src.val, .dataAck q.mshrType q.tag q.subline (grantMesi q.type) [h.data w q.subline])] }
  /-- Its tile gets one more subline of a line. -/
  | grantOwner : Hit cfg h q.tag w → q.type = .load ∨ q.type = .store ∨ q.type = .lr →
      q.cacheType = (h.lines.line w).di → (h.lines.line w).mesi = .e → (h.lines.line w).owner = q.src.val →
      Passed cfg h q w (h.put w { h.lines.line w with subline := addSubline q (h.lines.line w) } none)
        { tiles := [(q.src.val, .dataAck q.mshrType q.tag q.subline (grantMesi q.type)
            ((sentSublines q.cacheType q.subline).map (h.data w)))] }
  /-- One more tile shares a line, or the first one gets instructions. -/
  | share (l : Line) : Hit cfg h q.tag w → q.type = .load →
      (h.lines.line w).mesi = .s ∧ q.cacheType = (h.lines.line w).di ∧
          l = { h.lines.line w with subline := addSubline q (h.lines.line w) } ∨
        (h.lines.line w).mesi = .i ∧ q.cacheType = .ins ∧
          l = { h.lines.line w with
            mesi := .s, di := .ins, owner := 0, subline := addSubline q (h.lines.line w) } →
      Passed cfg h q w
        { h.put w l none with dir := Function.update h.dir w (Function.update (h.dir w) q.src true) }
        { tiles := [(q.src.val, .dataAck q.mshrType q.tag q.subline .s
            ((sentSublines q.cacheType q.subline).map (h.data w)))] }
  | readBlock : Hit cfg h q.tag w → q.type.isP1 = true → (h.lines.line w).mesi = .i →
      Passed cfg h q w
        { h.setEntry none with
          readData := h.data w q.subline
          casCmp := if q.type = .casP1 then q.compare (h.data w q.subline) else h.casCmp }
        { tiles := [(q.src.val, .dataAck q.mshrType q.tag q.subline .i [h.data w q.subline])] }
  | writeBlock : Hit cfg h q.tag w → q.type = .casP2y ∨ (∃ op, q.type = .atomicP2 op) → (h.lines.line w).mesi = .i →
      Passed cfg h q w
        { h.put w { h.lines.line w with vd := .dirty, di := .data } none with
          data := Function.update h.data w (Function.update (h.data w) q.subline (q.merge h.readData)) }
        {}

variable {cfg : SetCfg n} {h h' : CacheSet n} {q : Request n} {fromMshr : Bool} {victim : Nat} {out : Out}

theorem hit_of_tagHit (ht : h.tagHit cfg q = true) : Hit cfg h q.tag (h.waySel cfg q victim) := by
  unfold tagHit hitWay at ht
  unfold waySel hitWay
  split at ht
  · cases ht
  rename_i hf
  rw [if_neg hf]
  obtain ⟨w, hw⟩ := Option.isSome_iff_exists.1 ht
  rw [hw]
  exact ⟨List.mem_range.1 (List.mem_of_find?_eq_some hw), List.find?_some hw⟩

theorem absent_of_tagHit (hf : q.type ≠ .lineFlush) (ht : h.tagHit cfg q = false) : Absent cfg h q.tag := by
  intro w hw
  unfold tagHit hitWay at ht
  rw [if_neg hf] at ht
  simpa using List.find?_eq_none.1 (Option.not_isSome_iff_eq_none.1 (by simpa using ht)) w (List.mem_range.2 hw)

theorem waySel_of_tagHit (ht : h.tagHit cfg q = false) : h.waySel cfg q victim = victim := by
  have hn : h.hitWay cfg q = none := by simpa [tagHit] using ht
  rw [waySel, hn, Option.getD_none]

section Next

variable {w : Nat} {c : CsP1} {c4 : CsS4}

/-- A pass that leaves the line alone. -/
theorem pipe1Next_setEntry {b : Bool}
    (hc : c = { dirClkEn := c.dirClkEn, dataClkEn := c.dataClkEn, mshrWrEn := b, lruSet := c.lruSet, dataReady := c.dataReady })
    (h4 : c4.msg0 ≠ some .invFwd) (hr : readsBlock q c4 = false) :
    h.pipe1Next cfg q victim c c4 =
      h.setEntry
        (if b || h.guardWaits cfg q victim then some ⟨q, h.waySel cfg q victim, h.mshrPending cfg q victim⟩ else none) := by
  have hl : h.lineNext cfg q victim c c4 = h.lines.line (h.waySel cfg q victim) := by
    rw [lineNext, if_neg h4, hc]
    rfl
  rw [pipe1Next, hl, Function.update_eq_self, mshrNext, hr, hc]
  simp [setEntry]

/-- A pass that writes the state of the line. -/
theorem pipe1Next_put {l : Line} (hl : h.lineNext cfg q victim c c4 = l) (hd : c.dirWr = false) (hw : c.dataWr = false)
    (hr : readsBlock q c4 = false) :
    h.pipe1Next cfg q victim c c4 = h.put (h.waySel cfg q victim) l (h.mshrNext cfg q victim c) := by
  rw [pipe1Next, hl, hd, hw, hr]
  simp [put]

/-- A pass that puts the tile into the directory as well. -/
theorem pipe1Next_share {l : Line} (hl : h.lineNext cfg q victim c c4 = l) (hd : c.dirClkEn = true ∧ c.dirWr = true)
    (hw : c.dataWr = false) (hr : readsBlock q c4 = false) :
    h.pipe1Next cfg q victim c c4 =
      { h.put (h.waySel cfg q victim) l (h.mshrNext cfg q victim c) with
        dir := Function.update h.dir (h.waySel cfg q victim)
          (Function.update (h.dir (h.waySel cfg q victim)) q.src true) } := by
  rw [pipe1Next, hl, hd.1, hd.2, hw, hr]
  simp [put]

end Next

theorem lineTag_eq (hg : h.tagHit cfg q = true ∨ h.evict cfg q victim = true) :
    h.lineTag cfg q victim = h.lines.tag (h.waySel cfg q victim) := by
  rcases hg with hg | hg
  · have : h.evict cfg q victim = false := by simp [evict, hg]
    simp [lineTag, this, show h.lines.tag (h.waySel cfg q victim) = q.tag from (hit_of_tagHit hg).tag]
  · simp [lineTag, hg]

theorem guardWaits_eq_false (hg : q.type ≠ .wbguard) : h.guardWaits cfg q victim = false := by simp [guardWaits, hg]

/-- The messages for the caches above, when the line was found or has to go. -/
theorem passed_forward (hg : q.type ≠ .wbguard) (hw : h.waySel cfg q victim < cfg.ways)
    (hv : h.Valid (h.waySel cfg q victim)) (hb : (h.line cfg q victim).mesi ≠ .b)
    (ht : h.tagHit cfg q = true ∨ h.evict cfg q victim = true)
    {c : CsP1} {c4 : CsS4} (hc : Control.forward (h.line cfg q victim).mesi = some c)
    (hc4 : Control.sendForward (h.line cfg q victim).mesi = some c4 ∨
      (h.line cfg q victim).mesi = .e ∧ c4 = { sendFwd := true, msg0 := some .loadFwd }) :
    Passed cfg h q (h.waySel cfg q victim) (h.pipe1Next cfg q victim c c4) (h.outNext cfg q victim c c4) := by
  have hguard : h.guardWaits cfg q victim = false := guardWaits_eq_false hg
  have htag := lineTag_eq ht
  cases hm : (h.line cfg q victim).mesi with
  | i => simp [hm, Control.forward] at hc
  | b => exact absurd hm hb
  | s =>
      have hpend : h.mshrPending cfg q victim = false := by simp [mshrPending, hm]
      simp only [hm, Control.forward, Control.sendForward, Option.some.injEq, reduceCtorEq, false_and, or_false] at hc hc4
      subst hc hc4
      have : Passed cfg h q _ _ _ := .invalidate hg hw hv hm
      rw [pipe1Next_put rfl rfl rfl (by simp [readsBlock])]
      simpa [lineNext, CsP1.write, mshrNext, hguard, hpend, outNext, send, Out.append, htag, line] using this
  | e =>
      have hpend : h.mshrPending cfg q victim = false := by simp [mshrPending, hm]
      simp only [hm, Control.forward, Control.sendForward, Option.some.injEq, true_and] at hc hc4
      subst hc
      rcases hc4 with rfl | rfl
      · have : Passed cfg h q _ _ _ := .callBack .store hg hw hv hm (.inr rfl)
        rw [pipe1Next_setEntry (b := true) rfl (by simp) (by simp [readsBlock])]
        simpa [hpend, outNext, send, Out.append, htag, line] using this
      · have : Passed cfg h q _ _ _ := .callBack .load hg hw hv hm (.inl rfl)
        rw [pipe1Next_setEntry (b := true) rfl (by simp) (by simp [readsBlock])]
        simpa [hpend, outNext, send, Out.append, htag, line] using this

theorem passed_evict (hi : q.Ok) (hw : h.waySel cfg q victim < cfg.ways) (hb : (h.line cfg q victim).mesi ≠ .b)
    (he : h.evict cfg q victim = true) {c : CsP1} {c4 : CsS4}
    (hc : Control.evictS2 q.type (h.lookup cfg q fromMshr victim) = some c)
    (hc4 : Control.evictS4 false q.type (h.lookup cfg q fromMshr victim) = some c4) :
    Passed cfg h q (h.waySel cfg q victim) (h.pipe1Next cfg q victim c c4) (h.outNext cfg q victim c c4) := by
  have hg : q.type ≠ .wbguard ∧ h.tagHit cfg q = false ∧ h.Valid (h.waySel cfg q victim) := by
    simp [evict] at he
    exact ⟨he.1.1.1, he.1.2, he.2⟩
  obtain ⟨hg, ht, hv⟩ := hg
  have hf : q.type ≠ .lineFlush := by
    intro h
    simpa [h, MsgType.inPipe] using hi.inPipe
  have ha := absent_of_tagHit hf ht
  have hguard : h.guardWaits cfg q victim = false := guardWaits_eq_false hg
  have hpend : h.mshrPending cfg q victim = false := by simp [mshrPending, ht]
  have htag := lineTag_eq (.inr he)
  simp only [Control.evictS2, Control.evictS4, lookup] at hc hc4
  cases hm : (h.line cfg q victim).mesi with
  | i =>
      have : Passed cfg h q _ _ _ := .replace ha hg hw hv hm
      simp only [hm, Control.memRead, hf, if_false] at hc hc4
      rcases hv with hv | hv
      · simp only [line, hv, Option.some.injEq] at hc hc4
        subst hc hc4
        rw [pipe1Next_put rfl rfl rfl (by simp [readsBlock])]
        simpa [lineNext, CsP1.write, mshrNext, hguard, hpend, hf, outNext, send, Out.append, htag, line, hv] using this
      · simp only [line, hv, Option.some.injEq] at hc hc4
        subst hc hc4
        rw [pipe1Next_put rfl rfl rfl (by simp [readsBlock])]
        simpa [lineNext, CsP1.write, mshrNext, hguard, hpend, hf, outNext, send, Out.append, htag, line, hv, dataRead] using this
  | b => exact absurd hm hb
  | s => exact passed_forward hg hw hv hb (.inr he) (by simpa [hm] using hc) (.inl (by simpa [hm] using hc4))
  | e => exact passed_forward hg hw hv hb (.inr he) (by simpa [hm] using hc) (.inl (by simpa [hm] using hc4))

theorem passed_miss (hi : q.Ok) (hw : h.waySel cfg q victim < cfg.ways) (he : h.evict cfg q victim = false)
    (ht : h.tagHit cfg q = false) {c : CsP1} {c4 : CsS4}
    (hc : Control.missS2 q.type (h.lookup cfg q fromMshr victim) = some c)
    (hc4 : (if q.type = .wbguard then some {} else Control.missS4 false q.type (h.lookup cfg q fromMshr victim)) = some c4) :
    Passed cfg h q (h.waySel cfg q victim) (h.pipe1Next cfg q victim c c4) (h.outNext cfg q victim c c4) := by
  have hf : q.type ≠ .lineFlush ∧ q.type ≠ .disFlush := by
    constructor <;> intro h <;> simpa [h, MsgType.inPipe] using hi.inPipe
  have ha := absent_of_tagHit hf.1 ht
  have hpend : h.mshrPending cfg q victim = false := by simp [mshrPending, ht]
  by_cases hg : q.type = .wbguard
  · have : Passed cfg h q (h.waySel cfg q victim) _ _ := .guardGoes hg (.inl ha) fun hh => by
      simpa [ha _ hh.1.1] using hh.1.2
    simp only [hg, Control.missS2, MsgType.dropsOnMiss, reduceCtorEq, if_false, if_true, Option.some.injEq] at hc hc4
    subst hc hc4
    rw [pipe1Next_setEntry (b := false) rfl (by simp) (by simp [readsBlock])]
    simpa [guardWaits, ht, outNext, Out.append] using this
  rw [if_neg hg] at hc4
  have hguard : h.guardWaits cfg q victim = false := guardWaits_eq_false hg
  by_cases hn : q.type = .ncStore
  · simp only [hn, Control.missS2, Control.missS4, if_true, lookup] at hc hc4
    cases fromMshr with
    | true =>
        have : Passed cfg h q (h.waySel cfg q victim) _ _ := .ncStoreDone ha hn
        simp only [if_true, Option.some.injEq] at hc hc4
        subst hc hc4
        rw [pipe1Next_setEntry (b := false) rfl (by simp) (by simp [readsBlock])]
        simpa [hguard, outNext, send, Out.append] using this
    | false =>
        have : Passed cfg h q (h.waySel cfg q victim) _ _ := .ncStoreMiss ha hn
        simp only [Bool.false_eq_true, if_false, Option.some.injEq] at hc hc4
        subst hc hc4
        rw [pipe1Next_setEntry (b := true) rfl (by simp) (by simp [readsBlock])]
        simpa [hpend, outNext, send, Out.append] using this
  have hv : ¬h.Valid (h.waySel cfg q victim) := by
    intro hv
    have hvd : (h.line cfg q victim).vd = .clean ∨ (h.line cfg q victim).vd = .dirty := hv
    simp [evict, hg, hn, ht] at he
    rcases hvd with hvd | hvd
    · exact he.1 hvd
    · exact he.2 hvd
  by_cases hr : ∃ op, q.type = .rvcmo op
  · obtain ⟨op, hr⟩ := hr
    have : Passed cfg h q (h.waySel cfg q victim) _ _ := .cmoMiss op ha hr
    simp only [hr, Control.missS2, Control.missS4, MsgType.dropsOnMiss, reduceCtorEq, if_false, if_true,
      Option.some.injEq] at hc hc4
    subst hc hc4
    rw [pipe1Next_setEntry (b := false) rfl (by simp) (by simp [readsBlock])]
    simpa [hguard, outNext, send, Out.append] using this
  · have : Passed cfg h q _ _ _ := .fetch ha hg hw hv
    have hd : q.type.dropsOnMiss = false := by
      cases hq : q.type <;> simp_all [MsgType.dropsOnMiss]
    have h4 : Control.missS4 false q.type (h.lookup cfg q fromMshr victim) = some { msg0 := some .loadMem } := by
      cases hq : q.type <;> simp_all [Control.missS4, Control.memRead]
    simp only [Control.missS2, hn, hd, Bool.false_eq_true, if_false, Option.some.injEq] at hc
    obtain rfl : ({ msg0 := some .loadMem } : CsS4) = c4 := by simpa [h4] using hc4
    subst hc
    rw [pipe1Next_setEntry (b := true) rfl (by simp) (by simp [readsBlock])]
    simpa [hpend, outNext, send, Out.append] using this

theorem passed_grant (hh : Hit cfg h q.tag (h.waySel cfg q victim)) (hq : q.type = .load ∨ q.type = .store ∨ q.type = .lr)
    (hcd : q.cacheType = .data) (hm : (h.line cfg q victim).mesi = .i) :
    Passed cfg h q (h.waySel cfg q victim) (h.pipe1Next cfg q victim Control.grantE { msg0 := some .dataAck })
      (h.outNext cfg q victim Control.grantE { msg0 := some .dataAck }) := by
  have hg : q.type ≠ .wbguard ∧ q.type.isP1 = false := by rcases hq with hq | hq | hq <;> simp [hq, MsgType.isP1]
  have : Passed cfg h q _ _ _ := .grant hh hq hcd hm
  rw [pipe1Next_put rfl rfl rfl (by simp [readsBlock, hg.2])]
  rcases hq with hq | hq | hq <;>
    simpa [lineNext, CsP1.write, Control.grantE, mshrNext, guardWaits_eq_false hg.1, outNext, send, Out.append, line, hq,
      sendMesi, grantMesi, hcd, sentSublines, dataRead, sublineNext, addSubline, ownerNext] using this

theorem passed_grantOwner (hh : Hit cfg h q.tag (h.waySel cfg q victim))
    (hq : q.type = .load ∨ q.type = .store ∨ q.type = .lr) (hd : q.cacheType = (h.line cfg q victim).di)
    (hm : (h.line cfg q victim).mesi = .e) (ho : (h.line cfg q victim).owner = q.src.val) :
    Passed cfg h q (h.waySel cfg q victim) (h.pipe1Next cfg q victim Control.grantOwner { msg0 := some .dataAck })
      (h.outNext cfg q victim Control.grantOwner { msg0 := some .dataAck }) := by
  have hg : q.type ≠ .wbguard ∧ q.type.isP1 = false := by rcases hq with hq | hq | hq <;> simp [hq, MsgType.isP1]
  have hm' : (h.lines.line (h.waySel cfg q victim)).mesi = .e := hm
  have : Passed cfg h q _ _ _ := .grantOwner hh hq hd hm ho
  rw [pipe1Next_put rfl rfl rfl (by simp [readsBlock, hg.2])]
  rcases hq with hq | hq | hq <;>
    simpa [lineNext, CsP1.write, Control.grantOwner, mshrNext, guardWaits_eq_false hg.1, outNext, send, Out.append, line, hq,
      sendMesi, grantMesi, hm', dataRead, sublineNext, addSubline] using this

/-- The first phase of an atomic. -/
theorem passed_readBlock (hh : Hit cfg h q.tag (h.waySel cfg q victim)) (hq : q.type = .casP1 ∨ ∃ op, q.type = .atomicP1 op)
    (hcd : q.cacheType = .data) (hm : (h.line cfg q victim).mesi = .i) (b : Bool) :
    Passed cfg h q (h.waySel cfg q victim)
      (h.pipe1Next cfg q victim { dataClkEn := true, dataReady := b, lruSet := some true } { msg0 := some .dataAck })
      (h.outNext cfg q victim { dataClkEn := true, dataReady := b, lruSet := some true } { msg0 := some .dataAck }) := by
  have hm' : (h.lines.line (h.waySel cfg q victim)).mesi = .i := hm
  have hg : q.type ≠ .wbguard ∧ q.type.isP1 = true := by rcases hq with hq | ⟨op, hq⟩ <;> simp [hq, MsgType.isP1]
  have : Passed cfg h q _ _ _ := .readBlock hh hg.2 hm
  rw [pipe1Next, show h.lineNext cfg q victim _ _ = h.lines.line (h.waySel cfg q victim) from rfl, Function.update_eq_self]
  rcases hq with hq | ⟨op, hq⟩ <;>
    simpa [mshrNext, guardWaits_eq_false hg.1, outNext, send, Out.append, line, hq, sendMesi, hm', hcd, sentSublines,
      dataRead, readsBlock, MsgType.isP1, setEntry] using this

theorem passed_hit (hi : q.Ok) (hb : (h.line cfg q victim).mesi ≠ .b) (ht : h.tagHit cfg q = true) {c : CsP1} {c4 : CsS4}
    (hc : Control.hitS2 q.type (h.lookup cfg q fromMshr victim) = some c)
    (hc4 : (if q.type = .wbguard then some {} else Control.hitS4 q.type (h.lookup cfg q fromMshr victim)) = some c4) :
    Passed cfg h q (h.waySel cfg q victim) (h.pipe1Next cfg q victim c c4) (h.outNext cfg q victim c c4) := by
  have hh : Hit cfg h q.tag (h.waySel cfg q victim) := hit_of_tagHit ht
  have hv : (h.line cfg q victim).vd = .clean ∨ (h.line cfg q victim).vd = .dirty := hh.valid
  have htag : h.lineTag cfg q victim = q.tag := by rw [lineTag_eq (.inl ht), hh.tag]
  have hfwd (hg : q.type ≠ .wbguard) (c : CsP1) (c4 : CsS4) (hc : Control.forward (h.line cfg q victim).mesi = some c)
      (hc4 : Control.sendForward (h.line cfg q victim).mesi = some c4 ∨
        (h.line cfg q victim).mesi = .e ∧ c4 = { sendFwd := true, msg0 := some .loadFwd }) :
      Passed cfg h q (h.waySel cfg q victim) (h.pipe1Next cfg q victim c c4) (h.outNext cfg q victim c c4) :=
    passed_forward hg hh.1 hh.valid hb (.inl ht) hc hc4
  have hguard (hg : q.type ≠ .wbguard) : h.guardWaits cfg q victim = false := guardWaits_eq_false hg
  have hpend (hn : q.type ≠ .ncLoad ∧ q.type ≠ .ncStore) : h.mshrPending cfg q victim = false := by simp [mshrPending, hn]
  have hdata := hi.data
  generalize hx : h.lookup cfg q fromMshr victim = x at hc hc4
  have hxm : x.mesi = (h.line cfg q victim).mesi := hx ▸ rfl
  have hxv : x.vd = (h.line cfg q victim).vd := hx ▸ rfl
  have hxc : x.cacheType = q.cacheType := hx ▸ rfl
  have hxd : x.di = (h.line cfg q victim).di := hx ▸ rfl
  have hxo : x.reqFromOwner = true ↔ (h.line cfg q victim).owner = q.src.val := by
    rw [← hx]
    exact beq_iff_eq
  cases hq : q.type with
  | wbguard =>
      simp only [hq, Control.hitS2, if_true, Option.some.injEq] at hc hc4
      subst hc hc4
      rw [pipe1Next_setEntry (b := false) rfl (by simp) (by simp [readsBlock])]
      by_cases hw : h.guardWaits cfg q victim = true
      · have hwf := hw
        simp only [guardWaits, Bool.and_eq_true, beq_iff_eq] at hwf
        obtain ⟨⟨⟨-, he⟩, hs⟩, ho⟩ := hwf
        have : Passed cfg h q _ _ _ := .guardWaits hq hh he hs (by simpa [reqFromOwner, line] using ho)
        simpa [hw, hpend (by simp [hq]), outNext, Out.append] using this
      · have : Passed cfg h q (h.waySel cfg q victim) _ _ := .guardGoes hq (.inr hh) fun hx => hw (by
          simp only [guardWaits, hq, ht, reqFromOwner, line, Bool.and_eq_true, beq_iff_eq, true_and]
          exact ⟨⟨hx.2.1, hx.2.2.1⟩, hx.2.2.2⟩)
        simpa [hw, outNext, Out.append] using this
  | rvcmo op =>
      have hg : q.type ≠ .wbguard := by simp [hq]
      simp only [hq, Control.hitS2, Control.hitS4, hxm, hxv, reduceCtorEq, if_false] at hc hc4
      cases hm : (h.line cfg q victim).mesi with
      | b => exact absurd hm hb
      | i =>
          have : Passed cfg h q _ _ _ := .cmoDone op hh hq hm
          rcases hv with hv | hv
          · simp only [hm, hv, Option.some.injEq] at hc hc4
            subst hc hc4
            rw [pipe1Next_put rfl rfl rfl (by simp [readsBlock])]
            have hv' : (h.lines.line (h.waySel cfg q victim)).vd = .clean := hv
            simpa [lineNext, CsP1.write, mshrNext, hguard hg, outNext, send, Out.append, line, hv'] using this
          · simp only [hm, hv, Option.some.injEq] at hc hc4
            subst hc hc4
            rw [pipe1Next_put rfl rfl rfl (by split <;> simp [readsBlock])]
            have hv' : (h.lines.line (h.waySel cfg q victim)).vd = .dirty := hv
            by_cases ho : op = .inval
            · simpa [lineNext, CsP1.write, mshrNext, hguard hg, outNext, send, Out.append, line, hv', ho] using this
            · simpa [lineNext, CsP1.write, mshrNext, hguard hg, outNext, send, Out.append, line, hv', ho, htag,
                dataRead] using this
      | s | e => exact hfwd hg c c4 (by simpa [hm] using hc) (.inl (by simpa [hm] using hc4))
  | ncLoad =>
      have hg : q.type ≠ .wbguard := by simp [hq]
      simp only [hq, Control.hitS2, Control.hitS4, hxm, hxv, reduceCtorEq, if_false] at hc hc4
      cases hm : (h.line cfg q victim).mesi with
      | b => exact absurd hm hb
      | i =>
          rcases hv with hv | hv
          · have : Passed cfg h q _ _ _ := .ncLoadDone hh hq hm hv
            have hm' : (h.lines.line (h.waySel cfg q victim)).mesi = .i := hm
            simp only [hm, hv, Option.some.injEq] at hc hc4
            subst hc hc4
            rw [pipe1Next_put rfl rfl rfl (by simp [readsBlock, hq, MsgType.isP1])]
            simpa [lineNext, CsP1.write, mshrNext, hguard hg, outNext, send, Out.append, line, hq, sendMesi, hm',
              hdata (by simp [hq]), sentSublines, dataRead] using this
          · have : Passed cfg h q _ _ _ := .ncBack hh (.inl hq) hm hv
            have hp : h.mshrPending cfg q victim = true := by simp [mshrPending, ht, hq, hm, hv]
            simp only [hm, hv, Option.some.injEq] at hc hc4
            subst hc hc4
            rw [pipe1Next_put rfl rfl rfl (by simp [readsBlock])]
            simpa [lineNext, CsP1.write, mshrNext, hp, outNext, send, Out.append, line, htag, dataRead] using this
      | s | e => exact hfwd hg c c4 (by simpa [hm] using hc) (.inl (by simpa [hm] using hc4))
  | ncStore =>
      have hg : q.type ≠ .wbguard := by simp [hq]
      simp only [hq, Control.hitS2, Control.hitS4, hxm, hxv, reduceCtorEq, if_false] at hc hc4
      cases hm : (h.line cfg q victim).mesi with
      | b => exact absurd hm hb
      | i =>
          rcases hv with hv | hv
          · have : Passed cfg h q _ _ _ := .ncStoreHit hh hq hm hv
            have hp : h.mshrPending cfg q victim = false := by simp [mshrPending, hv]
            simp only [hm, hv, Option.some.injEq] at hc hc4
            subst hc hc4
            rw [pipe1Next_put rfl rfl rfl (by simp [readsBlock])]
            simpa [lineNext, CsP1.write, mshrNext, hp, outNext, send, Out.append, line] using this
          · have : Passed cfg h q _ _ _ := .ncBack hh (.inr hq) hm hv
            have hp : h.mshrPending cfg q victim = true := by simp [mshrPending, ht, hq, hm, hv]
            simp only [hm, hv, Option.some.injEq] at hc hc4
            subst hc hc4
            rw [pipe1Next_put rfl rfl rfl (by simp [readsBlock])]
            simpa [lineNext, CsP1.write, mshrNext, hp, outNext, send, Out.append, line, htag, dataRead] using this
      | s | e => exact hfwd hg c c4 (by simpa [hm] using hc) (.inl (by simpa [hm] using hc4))
  | load =>
      have hg : q.type ≠ .wbguard := by simp [hq]
      simp only [hq, Control.hitS2, Control.hitS4, hxm, reduceCtorEq, if_false] at hc hc4
      cases hm : (h.line cfg q victim).mesi with
      | b => exact absurd hm hb
      | i =>
          simp only [hm] at hc hc4
          by_cases hd : x.cacheType = .data
          · simp only [if_pos hd, Option.some.injEq] at hc hc4
            subst hc hc4
            exact passed_grant hh (.inl hq) (hxc ▸ hd) hm
          · have hins : q.cacheType = .ins := by
              rw [← hxc]
              cases h : x.cacheType <;> simp_all
            have : Passed cfg h q _ _ _ := .share _ hh hq (.inr ⟨hm, hins, rfl⟩)
            simp only [if_neg hd, Option.some.injEq] at hc hc4
            subst hc hc4
            rw [pipe1Next_share rfl ⟨rfl, rfl⟩ rfl (by simp [readsBlock, hq, MsgType.isP1])]
            simpa [lineNext, CsP1.write, mshrNext, hguard hg, outNext, send, Out.append, line, hq, sendMesi,
              hins, dataRead, sublineNext, addSubline, ownerNext] using this
      | s =>
          have hm' : (h.lines.line (h.waySel cfg q victim)).mesi = .s := hm
          simp only [hm] at hc hc4
          by_cases hd : x.cacheType = x.di
          · have : Passed cfg h q _ _ _ := .share _ hh hq (.inl ⟨hm, hxc ▸ hxd ▸ hd, rfl⟩)
            simp only [if_pos hd, Option.some.injEq] at hc hc4
            subst hc hc4
            rw [pipe1Next_share rfl ⟨rfl, rfl⟩ rfl (by simp [readsBlock, hq, MsgType.isP1])]
            simpa [lineNext, CsP1.write, mshrNext, hguard hg, outNext, send, Out.append, line, hq, sendMesi, hm',
              dataRead, sublineNext, addSubline] using this
          · simp only [if_neg hd] at hc hc4
            exact hfwd hg c c4 (by simpa [hm] using hc) (.inl (by simpa [hm] using hc4))
      | e =>
          simp only [hm, Bool.and_eq_true, decide_eq_true_eq, true_and] at hc hc4
          by_cases hd : x.reqFromOwner = true ∧ x.cacheType = x.di
          · simp only [if_pos hd, Option.some.injEq] at hc hc4
            subst hc hc4
            exact passed_grantOwner hh (.inl hq) (hxc ▸ hxd ▸ hd.2) hm (hxo.1 hd.1)
          · simp only [if_neg hd] at hc hc4
            refine hfwd hg c c4 (by simpa [hm] using hc) ?_
            split at hc4
            · exact .inl (by simpa [hm] using hc4)
            · exact .inr ⟨hm, by simpa using hc4.symm⟩
  | store =>
      have hg : q.type ≠ .wbguard := by simp [hq]
      have hcd : q.cacheType = .data := hdata (by simp [hq])
      simp only [hq, Control.hitS2, Control.hitS4, hxm, reduceCtorEq, if_false] at hc hc4
      cases hm : (h.line cfg q victim).mesi with
      | b => exact absurd hm hb
      | i =>
          simp only [hm, Option.some.injEq] at hc hc4
          subst hc hc4
          exact passed_grant hh (.inr (.inl hq)) hcd hm
      | s => exact hfwd hg c c4 (by simpa [hm] using hc) (.inl (by simpa [hm] using hc4))
      | e =>
          simp only [hm, Bool.and_eq_true, decide_eq_true_eq] at hc hc4
          by_cases hd : x.reqFromOwner = true ∧ x.cacheType = x.di
          · simp only [if_pos hd, Option.some.injEq] at hc hc4
            subst hc hc4
            exact passed_grantOwner hh (.inr (.inl hq)) (hxc ▸ hxd ▸ hd.2) hm (hxo.1 hd.1)
          · simp only [if_neg hd] at hc hc4
            exact hfwd hg c c4 (by simpa [hm] using hc) (.inl (by simpa [hm] using hc4))
  | lr =>
      have hg : q.type ≠ .wbguard := by simp [hq]
      have hcd : q.cacheType = .data := hdata (by simp [hq])
      simp only [hq, Control.hitS2, Control.hitS4, hxm, reduceCtorEq, if_false] at hc hc4
      cases hm : (h.line cfg q victim).mesi with
      | b => exact absurd hm hb
      | i =>
          simp only [hm, if_pos (hxc.trans hcd), Option.some.injEq] at hc hc4
          subst hc hc4
          exact passed_grant hh (.inr (.inr hq)) hcd hm
      | s => exact hfwd hg c c4 (by simpa [hm] using hc) (.inl (by simpa [hm] using hc4))
      | e =>
          simp only [hm, Bool.and_eq_true, decide_eq_true_eq] at hc hc4
          by_cases hd : x.reqFromOwner = true ∧ x.cacheType = x.di
          · simp only [if_pos hd, Option.some.injEq] at hc hc4
            subst hc hc4
            exact passed_grantOwner hh (.inr (.inr hq)) (hxc ▸ hxd ▸ hd.2) hm (hxo.1 hd.1)
          · simp only [if_neg hd] at hc hc4
            exact hfwd hg c c4 (by simpa [hm] using hc) (.inl (by simpa [hm] using hc4))
  | casP1 =>
      have hg : q.type ≠ .wbguard := by simp [hq]
      have hcd : q.cacheType = .data := hdata (by simp [hq])
      simp only [hq, Control.hitS2, Control.hitS4, hxm, reduceCtorEq, if_false] at hc hc4
      cases hm : (h.line cfg q victim).mesi with
      | b => exact absurd hm hb
      | i =>
          simp only [hm, Option.some.injEq] at hc hc4
          subst hc hc4
          exact passed_readBlock hh (.inl hq) hcd hm true
      | s | e => exact hfwd hg c c4 (by simpa [hm] using hc) (.inl (by simpa [hm] using hc4))
  | atomicP1 op =>
      have hg : q.type ≠ .wbguard := by simp [hq]
      have hcd : q.cacheType = .data := hdata (by simp [hq])
      simp only [hq, Control.hitS2, Control.hitS4, hxm, reduceCtorEq, if_false] at hc hc4
      cases hm : (h.line cfg q victim).mesi with
      | b => exact absurd hm hb
      | i =>
          simp only [hm, Option.some.injEq] at hc hc4
          subst hc hc4
          exact passed_readBlock hh (.inr ⟨op, hq⟩) hcd hm false
      | s | e => exact hfwd hg c c4 (by simpa [hm] using hc) (.inl (by simpa [hm] using hc4))
  | casP2y =>
      have hg : q.type ≠ .wbguard := by simp [hq]
      have hcd : q.cacheType = .data := hdata (by simp [hq])
      simp only [hq, Control.hitS2, Control.hitS4, hxm, reduceCtorEq, if_false] at hc hc4
      cases hm : (h.line cfg q victim).mesi with
      | b => exact absurd hm hb
      | i =>
          have : Passed cfg h q _ _ _ := .writeBlock hh (.inl hq) hm
          simp only [hm, Option.some.injEq] at hc hc4
          subst hc hc4
          simpa [pipe1Next, lineNext, CsP1.write, mshrNext, hguard hg, outNext, Out.append, line, hq, hcd, put,
            dataRead, dataWritten, readsBlock, MsgType.isP1] using this
      | s | e => exact hfwd hg c c4 (by simpa [hm] using hc) (.inl (by simpa [hm] using hc4))
  | atomicP2 op =>
      have hg : q.type ≠ .wbguard := by simp [hq]
      have hcd : q.cacheType = .data := hdata (by simp [hq])
      simp only [hq, Control.hitS2, Control.hitS4, hxm, reduceCtorEq, if_false] at hc hc4
      cases hm : (h.line cfg q victim).mesi with
      | b => exact absurd hm hb
      | i =>
          have : Passed cfg h q _ _ _ := .writeBlock hh (.inr ⟨op, hq⟩) hm
          simp only [hm, Option.some.injEq] at hc hc4
          subst hc hc4
          simpa [pipe1Next, lineNext, CsP1.write, mshrNext, hguard hg, outNext, Out.append, line, hq, hcd, put,
            dataRead, dataWritten, readsBlock, MsgType.isP1] using this
      | s | e => exact hfwd hg c c4 (by simpa [hm] using hc) (.inl (by simpa [hm] using hc4))
  | casP2n => simp [Control.hitS2, hq] at hc
  | _ => simpa [hq, MsgType.inPipe] using hi.inPipe

/-- What a pass does that is not recycled. -/
theorem pass_passed (hi : q.Ok) (hv : victim < cfg.ways) (hb : ∀ way, (h.lines.line way).mesi ≠ .b)
    (hp : h.pass cfg q fromMshr victim false = some (h', out)) : ∃ w, Passed cfg h q w h' out := by
  simp only [pass, Bool.false_eq_true, if_false, Option.bind_eq_some_iff, Option.map_eq_some_iff] at hp
  obtain ⟨c, hc, c4, hc4, heq⟩ := hp
  obtain ⟨rfl, rfl⟩ := Prod.mk.inj heq
  refine ⟨h.waySel cfg q victim, ?_⟩
  have hint : q.type ≠ .interruptFwd := by
    intro h
    simpa [h, MsgType.inPipe] using hi.inPipe
  by_cases hn : q.type = .casP2n
  · have : Passed cfg h q (h.waySel cfg q victim) _ _ := .casFails hn
    simp only [hn, Control.csS2, Control.csS4, true_or, if_true, reduceCtorEq, if_false, Option.some.injEq] at hc hc4
    subst hc hc4
    rw [pipe1Next_setEntry (b := false) rfl (by simp) (by simp [readsBlock])]
    simpa [guardWaits, hn, outNext, Out.append] using this
  simp only [Control.csS2, Control.csS4, hn, hint, or_self, false_or, if_false] at hc hc4
  by_cases ht : h.tagHit cfg q = true
  · have he : h.evict cfg q victim = false := by simp [evict, ht]
    have hx : (h.lookup cfg q fromMshr victim).tagHit = true ∧ (h.lookup cfg q fromMshr victim).evict = false := ⟨ht, he⟩
    simp only [hx, Bool.false_eq_true, if_false, Bool.not_true] at hc hc4
    exact passed_hit hi (hb _) ht hc hc4
  · rw [Bool.not_eq_true] at ht
    have hw : h.waySel cfg q victim < cfg.ways := by rw [waySel_of_tagHit ht]; exact hv
    by_cases he : h.evict cfg q victim = true
    · have hx : (h.lookup cfg q fromMshr victim).evict = true := he
      have hg : q.type ≠ .wbguard := by
        intro h
        simp [evict, h] at he
      simp only [hx, if_true, hg, if_false] at hc hc4
      exact passed_evict hi hw (hb _) he hc hc4
    · rw [Bool.not_eq_true] at he
      have hx : (h.lookup cfg q fromMshr victim).tagHit = false ∧ (h.lookup cfg q fromMshr victim).evict = false := ⟨ht, he⟩
      simp only [hx, Bool.false_eq_true, if_false, Bool.not_false, if_true] at hc hc4
      exact passed_miss hi hw he ht hc hc4

end CacheSet

end OpenPiton.L2
