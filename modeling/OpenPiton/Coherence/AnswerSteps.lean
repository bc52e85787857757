import OpenPiton.Coherence.Passes

namespace OpenPiton.Coherence

open L2 (Block Request Noc2 Noc3 MsgType CacheType FwdType CacheSet SetCfg Entry ToMem MemAck Line)
open L2.CacheSet (Passed Hit Absent Valid)
open L15 (Mesi MshrType)

variable {n : Nat} {cfg : SetCfg n} {v : Fin n → View n} {h h' : CacheSet n} {toMem : List ToMem} {fromMem : List MemAck}
  {e : Entry n} {t : Fin n}

/-! ## A message of a tile is gone -/

namespace View

variable {x : View n} {m : Noc3} {ms : List Noc3}

theorem shrinks_popped (hn : x.noc3 = m :: ms) (a : Addr) : x.Shrinks a { x with noc3 := ms } where
  reads := id
  writes := id
  fetches := id
  backs h := .inl fun h0 => h (by
    simp only [View.line, hn, List.filter_cons] at h0
    split at h0
    · cases h0
    · exact h0)

/-- Any message but the last acknowledgement of a forward. -/
theorem Evolves.popped (hn : x.noc3 = m :: ms) (hm : ∀ type k d, m ≠ .fwdAck type k true d) :
    x.Evolves { x with noc3 := ms } where
  shrinks := shrinks_popped hn
  still h := ⟨h.1, fun m' hm' => h.2 m' (by simp [hn, show m' ∈ ms from hm'])⟩
  due type tag di _ h := by
    rcases h with ⟨hs, ha⟩ | ⟨hf, ⟨l, k, d, r, hr, hl, hlast⟩, hlost⟩
    · exact .inl ⟨hs, fun m' hm' => ha m' (by simp [hn, show m' ∈ ms from hm'])⟩
    · refine .inr ⟨hf, ?_, hlost⟩
      cases l with
      | nil =>
          rw [hn, List.nil_append] at hr
          exact absurd (List.cons.inj hr).1 (hm _ _ _)
      | cons m' l =>
          rw [hn, List.cons_append] at hr
          exact ⟨l, k, d, r, (List.cons.inj hr).2, fun m'' h' => hl m'' (List.mem_cons_of_mem _ h'), hlast⟩
  queue q l h := ⟨l, h⟩

end View

/-- An acknowledgement is not about the copies. -/
theorem Local.ack {x : View n} (hl : Local t x) {m : Noc3} {ms : List Noc3} (hn : x.noc3 = m :: ms)
    (hm : ∀ a, m.isBack a = false) :
    Local t { x with noc3 := ms } := by
  refine ⟨fun a => ?_, hl.typed⟩
  have : ({ x with noc3 := ms } : View n).line a = x.line a := by simp [View.line, hn, hm]
  rw [this]
  exact hl.line a

/-! ## Write-backs -/

/-- The line after a write-back of one of its sublines. -/
def wbLine (l : Line) (k : BitVec 2) : Line :=
  { l with
    mesi := if l.subline = 1#4 <<< k.toNat then .i else l.mesi
    vd := .dirty
    subline := l.subline &&& ~~~(1#4 <<< k.toNat) }

theorem stateWrite_wbReq (tag : Nat) (k : BitVec 2) (data : Block) (l : Line) :
    (CacheSet.wbReq tag k data).stateWrite l = wbLine l k := by
  have h64 : (CacheSet.wbReq tag k data).load64B = false := rfl
  have h32 : (CacheSet.wbReq tag k data).load32B = false := rfl
  have hk : (CacheSet.wbReq tag k data).dataSubline = k := rfl
  have hs : (CacheSet.wbReq tag k data).addrSubline = 1#4 <<< k.toNat := rfl
  by_cases hl : l.subline = 1#4 <<< k.toNat <;>
    simp [L2.WbReq.stateWrite, L2.WbReq.cs, h64, h32, hk, hl, wbLine, L2.WbReq.stateSubline, hs]

theorem wbWay_eq (hd : Directory cfg v h) {tag w : Nat} (hh : Hit cfg h tag w) : h.wbWay cfg tag = w := by
  have hsome : ((List.range cfg.ways).reverse.find? (h.lines.tagHitWay tag)).isSome = true := by
    rw [List.find?_isSome]
    exact ⟨w, by simpa using hh.1, hh.2⟩
  obtain ⟨w', hw'⟩ := Option.isSome_iff_exists.1 hsome
  have hh' : Hit cfg h tag w' := ⟨by simpa using List.mem_of_find?_eq_some hw', List.find?_some hw'⟩
  have : w' = w := hd.unique w' hh'.1 w hh.1 hh'.valid hh.valid (by rw [hh'.tag, hh.tag])
  simp [CacheSet.wbWay, L2.LineSet.hitWaySel, hw', this]

theorem sub_getLsbD : ∀ (s : BitVec 4) (k k' : BitVec 2),
    (s &&& ~~~(1#4 <<< k.toNat)).getLsbD k'.toNat = (s.getLsbD k'.toNat && k != k') := by
  decide

theorem sub_ne_zero : ∀ (s : BitVec 4) (k : BitVec 2), s.getLsbD k.toNat = true → s ≠ 1#4 <<< k.toNat →
    s &&& ~~~(1#4 <<< k.toNat) ≠ 0 := by
  decide

theorem one_getLsbD : ∀ k k' : BitVec 2, (1#4 <<< k.toNat).getLsbD k'.toNat = true → k' = k := by decide

/-- A set whose valid lines are the same ones. -/
theorem Fetching.congr (hf : Fetching cfg h toMem fromMem e) (htag : h'.lines.tag = h.lines.tag)
    (hv : ∀ way, h'.Valid way ↔ h.Valid way) : Fetching cfg h' toMem fromMem e := by
  refine ⟨hf.one, hf.waits, hf.notGuard, fun hl => ?_⟩
  obtain ⟨hw, hn, ha⟩ := hf.line hl
  refine ⟨hw, fun h => hn ((hv _).1 h), fun way hway => ?_⟩
  by_contra hhit
  have hh : Hit cfg h' e.req.tag way := ⟨hway, by simpa using hhit⟩
  have h0 := CacheSet.Valid.hit ((hv way).1 hh.valid) hway
  rw [← htag, hh.tag] at h0
  have := ha way hway
  rw [h0.2] at this
  cases this

/-- A line that is written while forwards may be under way. -/
theorem Safe.write_line (hs : Safe cfg v h toMem fromMem) (hd : Directory cfg v h') (hm : h'.mshr = h.mshr)
    (htag : h'.lines.tag = h.lines.tag) (hv : ∀ way, h'.Valid way ↔ h.Valid way)
    (hl : ∀ way, (h'.lines.line way).di = (h.lines.line way).di ∧ (h'.lines.line way).owner = (h.lines.line way).owner ∧
      ((h'.lines.line way).mesi = (h.lines.line way).mesi ∨ (h.lines.line way).mesi = .e ∧ (h'.lines.line way).mesi = .i)) :
    Safe cfg v h' toMem fromMem := by
  refine ⟨hs.tile, hd, fun e he => hs.entry e (hm ▸ he), ?_, fun ha => ?_⟩
  · rcases hs.phase with h0 | ⟨e, p, he, hf⟩
    · exact .inl h0
    · obtain ⟨hdi, ho, hmesi⟩ := hl e.way
      refine .inr ⟨e, p, hm.trans he, hf.waits, hf.notGuard, hf.way, (hv _).2 hf.valid, fun hp => ?_, fun hp => ?_, ?_, hf.still⟩
      · obtain ⟨h1, h2, h3⟩ := hf.inv hp
        rw [htag, ho]
        refine ⟨?_, h2, h3⟩
        rcases hmesi with hmesi | ⟨hmesi, -⟩
        · exact hmesi.trans h1
        · rw [h1] at hmesi
          cases hmesi
      · obtain ⟨o, h1, h2⟩ := hf.owner hp
        rw [ho]
        refine ⟨o, h1, ?_⟩
        rcases hmesi with hmesi | ⟨-, hmesi⟩
        · rw [hmesi]
          exact h2
        · exact .inr hmesi
      · rw [htag, hdi]
        exact hf.due
  · obtain ⟨h0, e, he, hf⟩ := hs.memory ha
    exact ⟨h0, e, hm.trans he, hf.congr htag hv⟩

/-- A write-back finds its line at its owner. -/
theorem Safe.owner_of_back (hs : Safe cfg v h toMem fromMem) {tag : Nat} {k : BitVec 2} (hback : (v t).Backs (tag, k)) :
    ∃ w, Hit cfg h tag w ∧ (h.lines.line w).mesi = .e ∧ (h.lines.line w).di = .data ∧ (h.lines.line w).owner = t.val ∧
      (∀ u k', ¬(v u).Fetches (tag, k') ∧ (((v u).line (tag, k')).Reads ∨ (v u).Backs (tag, k') →
        u = t ∧ (h.lines.line w).subline.getLsbD k'.toNat = true)) ∧
      (h.lines.line w).subline.getLsbD k.toNat = true := by
  obtain ⟨w, hh⟩ : ∃ w, Hit cfg h tag w := by
    by_contra hno
    refine (hs.directory.absent tag (fun way hway => ?_) t k).2.2 hback
    by_contra hhit
    exact hno ⟨way, hway, by simpa using hhit⟩
  have hline := hs.directory.line_of_hit hh
  unfold LineOk at hline
  cases hm : (h.lines.line w).mesi with
  | i =>
      simp only [hm] at hline
      exact absurd hback (hline t k).2.2
  | s =>
      simp only [hm] at hline
      exact absurd hback (hline t k).2.1
  | e =>
      simp only [hm] at hline
      obtain ⟨hdi, -, o, ho, hx⟩ := hline
      obtain ⟨rfl, hk⟩ := (hx t k).2 (.inr hback)
      exact ⟨w, hh, hm, hdi, ho, hx, hk⟩
  | b => simp only [hm] at hline

/-- The tile without the message of a write-back. -/
theorem Local.back {x : View n} (hl : Local t x) {tag : Nat} {k : BitVec 2} {data : Block} {ms : List Noc3}
    (hn : x.noc3 = .writeBack tag k data :: ms) : Local t { x with noc3 := ms } := by
  have hbacks : (x.line (tag, k)).backs = .writeBack tag k data :: ms.filter (·.isBack (tag, k)) := by
    simp [View.line, hn]
  refine ⟨fun a => ?_, hl.typed⟩
  by_cases ha : a = (tag, k)
  · subst ha
    exact ((hl.line (tag, k)).backDone hbacks).2
  · have : ({ x with noc3 := ms } : View n).line a = x.line a := by
      simp [View.line, hn, Ne.symm ha]
    rw [this]
    exact hl.line a

/-- A write-back comes to pipeline 2. -/
theorem Safe.writeBack (hs : Safe cfg v h toMem fromMem) {tag : Nat} {k : BitVec 2} {data : Block} {ms : List Noc3}
    (hn : (v t).noc3 = .writeBack tag k data :: ms) :
    Safe cfg (Function.update v t { v t with noc3 := ms }) (h.writeBack cfg tag k data) toMem fromMem := by
  have hd := hs.directory
  have hbacks : ((v t).line (tag, k)).backs = .writeBack tag k data :: ms.filter (·.isBack (tag, k)) := by
    simp [View.line, hn]
  have hback : (v t).Backs (tag, k) := by
    rw [View.Backs, hbacks]
    simp
  obtain ⟨-, hnr, -⟩ := ((hs.tile t).line (tag, k)).back hback
  have hnil := (((hs.tile t).line (tag, k)).backDone hbacks).1
  obtain ⟨w, hh, hm, hdi, ho, hx, hk⟩ := hs.owner_of_back hback
  have hs' := hs.tile_step ((hs.tile t).back hn) (.popped hn (by simp))
  have hgone (u : Fin n) (k' : BitVec 2)
      (hb : ((Function.update v t { v t with noc3 := ms } u).line (tag, k')).Reads ∨
        (Function.update v t { v t with noc3 := ms } u).Backs (tag, k')) :
      u = t ∧ (h.lines.line w).subline.getLsbD k'.toNat = true ∧ k' ≠ k := by
    by_cases hu : u = t
    · subst hu
      rw [Function.update_self] at hb
      have hsh := View.shrinks_popped hn (tag, k')
      have hold : ((v u).line (tag, k')).Reads ∨ (v u).Backs (tag, k') := by
        rcases hb with hb | hb
        · exact .inl hb
        · exact (hsh.backs hb).elim .inr fun hb => .inl hb.reads
      refine ⟨rfl, ((hx u k').2 hold).2, ?_⟩
      rintro rfl
      rcases hb with hb | hb
      · exact hnr hb
      · exact hb hnil
    · rw [Function.update_of_ne hu] at hb
      exact absurd ((hx u k').2 hb).1 hu
  have hfetch (u : Fin n) (k' : BitVec 2) : ¬(Function.update v t { v t with noc3 := ms } u).Fetches (tag, k') := by
    by_cases hu : u = t
    · subst hu
      rw [Function.update_self]
      exact (hx u k').1
    · rw [Function.update_of_ne hu]
      exact (hx u k').1
  have hway := wbWay_eq hd hh
  have hwl : (h.writeBack cfg tag k data).lines.line = Function.update h.lines.line w (wbLine (h.lines.line w) k) := by
    rw [← hway, ← stateWrite_wbReq tag k data]
    rfl
  have hvalid (way : Nat) : (h.writeBack cfg tag k data).Valid way ↔ h.Valid way := by
    rw [CacheSet.Valid, hwl]
    by_cases hne : way = w
    · subst hne
      simpa [wbLine] using hh.valid
    · simp [CacheSet.Valid, hne]
  refine hs'.write_line ?_ rfl rfl hvalid fun way => ?_
  · refine hs'.directory.write hh.1 hh.valid rfl (fun way hne => ?_) (fun way hne => ?_) (fun u tag' k' _ => .refl _ _)
      (fun _ => ?_) fun hnv => absurd ((hvalid w).2 hh.valid) hnv
    · rw [hwl, Function.update_of_ne hne]
    · simp only [CacheSet.writeBack, hway]
      split
      · rw [Function.update_of_ne hne]
      · rfl
    · rw [hwl, Function.update_self, hh.tag]
      by_cases hlast : (h.lines.line w).subline = 1#4 <<< k.toNat
      · refine Gone.lineOk (fun u k' => ?_) (by simp [wbLine, hlast])
        have hno (h' : ((Function.update v t { v t with noc3 := ms } u).line (tag, k')).Reads ∨
            (Function.update v t { v t with noc3 := ms } u).Backs (tag, k')) : False := by
          obtain ⟨-, hb, hkk⟩ := hgone u k' h'
          rw [hlast] at hb
          exact hkk (one_getLsbD k k' hb)
        exact ⟨fun h' => hno (.inl h'), hfetch u k', fun h' => hno (.inr h')⟩
      · simp only [LineOk, wbLine, hlast, if_false, hm]
        refine ⟨hdi, sub_ne_zero _ _ hk hlast, t, ho, fun u k' => ⟨hfetch u k', fun h' => ?_⟩⟩
        obtain ⟨h1, h2, h3⟩ := hgone u k' h'
        refine ⟨h1, ?_⟩
        rw [sub_getLsbD, h2]
        simpa using Ne.symm h3
  · rw [hwl]
    by_cases hne : way = w
    · subst hne
      simp only [Function.update_self, wbLine, true_and]
      split
      · exact .inr ⟨hm, rfl⟩
      · exact .inl rfl
    · rw [Function.update_of_ne hne]
      exact ⟨rfl, rfl, .inl rfl⟩

/-! ## Acknowledgements -/

/-- One that is not the last. -/
theorem fwdAck_first {type : FwdType} {k : BitVec 2} {data : Option Block} (hf : h.fwdAck cfg e type k false data = some h') :
    ∃ vd, (vd = (h.lines.line e.way).vd ∨ vd = .dirty) ∧ h'.lines.tag = h.lines.tag ∧
      h'.lines.line = Function.update h.lines.line e.way { h.lines.line e.way with vd := vd } ∧ h'.dir = h.dir ∧
      h'.mshr = some e := by
  obtain ⟨c, hc, rfl⟩ := Option.map_eq_some_iff.1 hf
  have hcs : c.mesiEn = false ∧ c.vd = .dirty ∧ c.sublineEn = false ∧ c.ownerEn = false ∧ c.dirClkEn = false ∨
      c.mesiEn = false ∧ c.vdEn = false ∧ c.sublineEn = false ∧ c.ownerEn = false ∧ c.dirClkEn = false := by
    cases type <;> cases hm : (h.lines.line e.way).mesi <;> simp [hm, L2.csFwdAck] at hc <;> subst hc <;> simp
  refine ⟨if c.vdEn then c.vd else (h.lines.line e.way).vd, ?_, rfl, ?_, ?_, by simp⟩
  · rcases hcs with hcs | hcs
    · by_cases hv : c.vdEn = true <;> simp [hv, hcs]
    · simp [hcs]
  · rcases hcs with hcs | hcs <;> simp [L2.Cs.write, hcs]
  · rcases hcs with hcs | hcs <;> simp [hcs]

theorem Safe.fwdAck_first (hs : Safe cfg v h toMem fromMem) {p : Phase n} (he : h.mshr = some e)
    (hf : Forwarding cfg v h e p) {type : FwdType} {k : BitVec 2} {data : Option Block} {ms : List Noc3}
    (hn : (v t).noc3 = .fwdAck type k false data :: ms) (ha : h.fwdAck cfg e type k false data = some h') :
    Safe cfg (Function.update v t { v t with noc3 := ms }) h' toMem fromMem := by
  have hs' := hs.tile_step ((hs.tile t).ack hn (by simp)) (.popped hn (by simp))
  obtain ⟨vd, hvd, htag, hline, hdir, hm⟩ := Coherence.fwdAck_first ha
  have hvalid (way : Nat) : h'.Valid way ↔ h.Valid way := by
    rw [CacheSet.Valid, hline]
    by_cases hne : way = e.way
    · subst hne
      have := hf.valid
      refine iff_of_true ?_ this
      rcases hvd with rfl | rfl
      · simpa [CacheSet.Valid] using this
      · simp
    · simp [CacheSet.Valid, hne]
  refine hs'.write_line ?_ (hm.trans he.symm) htag hvalid fun way => ?_
  · refine hs'.directory.write hf.way hf.valid htag (fun way hne => ?_) (fun way _ => by rw [hdir]) (fun u tag' k' _ => .refl _ _)
      (fun _ => ?_) fun hnv => absurd ((hvalid _).2 hf.valid) hnv
    · rw [hline, Function.update_of_ne hne]
    · have := hs'.directory.line e.way hf.way hf.valid
      simpa [hline, hdir, LineOk] using this
  · rw [hline]
    by_cases hne : way = e.way
    · subst hne
      simp
    · simp [hne]

/-- What the last acknowledgement makes of a line. -/
inductive LastAck (cfg : SetCfg n) (h : CacheSet n) (e : Entry n) : FwdType → CacheSet n → Prop
  /-- The line was written back meanwhile. -/
  | gone {type : FwdType} {h' : CacheSet n} : type ≠ .inv → (h.lines.line e.way).mesi = .i → h'.lines = h.lines → h'.dir = h.dir →
      h'.mshr = some { e with pending := true } → LastAck cfg h e type h'
  | downgrade (vd : L2.Vd) {h' : CacheSet n} : (h.lines.line e.way).mesi = .e → (vd = (h.lines.line e.way).vd ∨ vd = .dirty) →
      h'.lines.tag = h.lines.tag →
      h'.lines.line = Function.update h.lines.line e.way { h.lines.line e.way with mesi := .s, vd := vd, owner := 0 } →
      h'.dir = Function.update h.dir e.way (fun t => t.val == (h.lines.line e.way).owner) →
      h'.mshr = some { e with pending := true } → LastAck cfg h e .load h'
  | release {type : FwdType} (vd : L2.Vd) {h' : CacheSet n} : type = .store ∧ (h.lines.line e.way).mesi = .e ∨
        type = .inv ∧ (h.lines.line e.way).owner = 1 →
      (vd = (h.lines.line e.way).vd ∨ vd = .dirty) → h'.lines.tag = h.lines.tag →
      h'.lines.line = Function.update h.lines.line e.way
        { h.lines.line e.way with mesi := .i, vd := vd, subline := 0, owner := 0 } →
      (∀ way ≠ e.way, h'.dir way = h.dir way) → h'.mshr = some { e with pending := true } → LastAck cfg h e type h'
  /-- More tiles have to acknowledge. -/
  | count {h' : CacheSet n} : (h.lines.line e.way).owner ≠ 1 → h'.lines.tag = h.lines.tag →
      h'.lines.line = Function.update h.lines.line e.way
        { h.lines.line e.way with owner := ((h.lines.line e.way).owner + (2 ^ cfg.ownerBits - 1)) % 2 ^ cfg.ownerBits } →
      h'.dir = h.dir → h'.mshr = some e → LastAck cfg h e .inv h'

theorem fwdAck_last {type : FwdType} {k : BitVec 2} {data : Option Block} (hf : h.fwdAck cfg e type k true data = some h') :
    LastAck cfg h e type h' := by
  obtain ⟨c, hc, rfl⟩ := Option.map_eq_some_iff.1 hf
  generalize ((h.lines.line e.way).subline.getLsbD k.toNat && data.isSome) = b at hc
  have hvd : (if b then L2.Vd.dirty else (h.lines.line e.way).vd) = (h.lines.line e.way).vd ∨
      (if b then L2.Vd.dirty else (h.lines.line e.way).vd) = .dirty := by
    cases b <;> simp
  cases type with
  | load =>
      cases hm : (h.lines.line e.way).mesi with
      | i =>
          simp only [hm, L2.csFwdAck, Option.some.injEq] at hc
          subst hc
          exact .gone (by simp) hm (by simp [L2.Cs.write]) rfl (by simp)
      | e =>
          simp only [hm, L2.csFwdAck, if_true, Option.some.injEq] at hc
          subst hc
          exact .downgrade (if b then .dirty else (h.lines.line e.way).vd) hm hvd rfl
            (by simp [L2.Cs.write, L2.ownerNext]) (by simp) (by simp)
      | s | b => simp [hm, L2.csFwdAck] at hc
  | store =>
      cases hm : (h.lines.line e.way).mesi with
      | i =>
          simp only [hm, L2.csFwdAck, Option.some.injEq] at hc
          subst hc
          exact .gone (by simp) hm (by simp [L2.Cs.write]) rfl (by simp)
      | e =>
          simp only [hm, L2.csFwdAck, if_true, Option.some.injEq] at hc
          subst hc
          refine .release (if b then .dirty else (h.lines.line e.way).vd) (.inl ⟨rfl, hm⟩) hvd rfl
            (by simp [L2.Cs.write, L2.ownerNext, L2.sublineNext]) (fun way hne => ?_) (by simp)
          simp [hne]
      | s | b => simp [hm, L2.csFwdAck] at hc
  | inv =>
      by_cases ho : (h.lines.line e.way).owner = 1
      · simp only [ho, L2.csFwdAck, if_true, beq_self_eq_true, Option.some.injEq] at hc
        subst hc
        exact .release _ (.inr ⟨rfl, ho⟩) (.inl rfl) rfl (by simp [L2.Cs.write, L2.ownerNext, L2.sublineNext])
          (fun way hne => rfl)
          (by simp [ho])
      · have hb : ((h.lines.line e.way).owner == 1) = false := by simpa using ho
        simp only [hb, L2.csFwdAck, if_true, Bool.false_eq_true, if_false, Option.some.injEq] at hc
        subst hc
        exact .count ho rfl (by simp [L2.Cs.write, L2.ownerNext]) rfl (by simp [hb])

/-- The tile that has sent the last acknowledgement of a forward. -/
theorem View.Acked.head {x : View n} {type : FwdType} {tag : Nat} (hx : x.Acked type tag) {m : Noc3} {ms : List Noc3}
    (hn : x.noc3 = m :: ms) (hm : m.isAck = true) :
    (∃ k d, m = .fwdAck type k false d) ∨
      (∃ k d, m = .fwdAck type k true d) ∧ ∀ m ∈ ms, m.isAck = false ∧ ∀ k, m.isBack (tag, k) = false := by
  obtain ⟨-, ⟨l, k, d, r, hr, hl, hlast⟩, -⟩ := hx
  cases l with
  | nil =>
      rw [hn, List.nil_append] at hr
      obtain ⟨rfl, rfl⟩ := List.cons.inj hr
      exact .inr ⟨⟨k, d, rfl⟩, hlast⟩
  | cons m' l =>
      rw [hn, List.cons_append] at hr
      obtain ⟨rfl, -⟩ := List.cons.inj hr
      exact .inl (hl m List.mem_cons_self hm)

/-- The count of the tiles that have yet to acknowledge is one for the last of them. -/
theorem card_of_owner {tiles : Finset (Fin n)} (ht : t ∈ tiles) (ho : tiles.card % 2 ^ cfg.ownerBits = 1) : tiles = {t} := by
  have h0 : 0 < tiles.card := Finset.card_pos.2 ⟨t, ht⟩
  have hle : tiles.card ≤ 2 ^ cfg.ownerBits := (card_finset_fin_le tiles).trans cfg.tiles_le
  have h1 : tiles.card = 1 := by
    rcases hle.lt_or_eq with hlt | heq
    · rwa [Nat.mod_eq_of_lt hlt] at ho
    · rw [heq, Nat.mod_self] at ho
      cases ho
  obtain ⟨u, hu⟩ := Finset.card_eq_one.1 h1
  rw [hu, Finset.mem_singleton] at ht
  rw [hu, ht]

/-- One tile less. -/
theorem count_down {c b : Nat} (h0 : 0 < c) (hle : c ≤ 2 ^ b) : (c % 2 ^ b + (2 ^ b - 1)) % 2 ^ b = (c - 1) % 2 ^ b := by
  have hpos : 0 < 2 ^ b := Nat.pow_pos (by decide)
  rcases hle.lt_or_eq with hlt | rfl
  · rw [Nat.mod_eq_of_lt hlt, show c + (2 ^ b - 1) = c - 1 + 2 ^ b by omega, Nat.add_mod_right]
  · rw [Nat.mod_self, Nat.zero_add]

/-- The tiles without the first message of one. -/
abbrev popped (v : Fin n → View n) (t : Fin n) (ms : List Noc3) : Fin n → View n :=
  Function.update v t { v t with noc3 := ms }

/-- The last acknowledgement of a tile comes to pipeline 2, and the entry waits for it. -/
structure Acking (cfg : SetCfg n) (v : Fin n → View n) (h : CacheSet n) (toMem : List ToMem) (fromMem : List MemAck)
    (e : Entry n) (type : FwdType) (tiles : Finset (Fin n)) (t : Fin n) (ms : List Noc3) : Prop where
  safe : Safe cfg v h toMem fromMem
  entry : h.mshr = some e
  forwarding : Forwarding cfg v h e ⟨type, tiles⟩
  due : t ∈ tiles
  acked : (v t).Acked type (h.lines.tag e.way)
  head : ∃ k data, (v t).noc3 = .fwdAck type k true data :: ms
  rest : ∀ m ∈ ms, m.isAck = false ∧ ∀ k, m.isBack (h.lines.tag e.way, k) = false

namespace Acking

variable {type : FwdType} {tiles : Finset (Fin n)} {ms : List Noc3} {u : Fin n} {k : BitVec 2}

section

variable (ha : Acking cfg v h toMem fromMem e type tiles t ms)
include ha

theorem shrinks (u : Fin n) (a : Addr) : (v u).Shrinks a (popped v t ms u) := by
  obtain ⟨k, data, hn⟩ := ha.head
  by_cases hu : u = t
  · subst hu
    rw [popped, Function.update_self]
    exact View.shrinks_popped hn a
  · rw [popped, Function.update_of_ne hu]
    exact .refl _ _

theorem tile (u : Fin n) : Local u (popped v t ms u) := by
  obtain ⟨k, data, hn⟩ := ha.head
  by_cases hu : u = t
  · subst hu
    rw [popped, Function.update_self]
    exact (ha.safe.tile u).ack hn (by simp)
  · rw [popped, Function.update_of_ne hu]
    exact ha.safe.tile u

theorem still (hu : u ∉ tiles.erase t) : (popped v t ms u).Still := by
  by_cases hut : u = t
  · subst hut
    rw [popped, Function.update_self]
    exact ⟨ha.acked.1, fun m hm => (ha.rest m hm).1⟩
  · rw [popped, Function.update_of_ne hut]
    exact ha.forwarding.still u fun h => hu (Finset.mem_erase.2 ⟨hut, h⟩)

/-- The request of the entry keeps its place. -/
theorem entries {e' : Entry n} (hm : h'.mshr = some e') (hreq : e'.req = e.req) : ∀ e'', h'.mshr = some e'' →
    e''.req.type.inPipe = true ∧ ∃ qs, (popped v t ms e''.req.src).queue = e''.req :: qs := by
  intro e'' he''
  obtain rfl := Option.some.inj (hm.symm.trans he'')
  have hqueue (u : Fin n) : (popped v t ms u).queue = (v u).queue := by
    by_cases hu : u = t
    · subst hu
      rw [popped, Function.update_self]
    · rw [popped, Function.update_of_ne hu]
  rw [hreq, hqueue]
  exact ha.safe.entry e ha.entry

theorem quiet : ¬0 < awaited toMem fromMem := by
  intro hp
  obtain ⟨k, data, hn⟩ := ha.head
  have := ((ha.safe.memory hp).1 t).2 _ (by rw [hn]; exact List.mem_cons_self)
  cases this

theorem no_back : ¬(popped v t ms t).Backs (h.lines.tag e.way, k) := by
  rw [popped, Function.update_self, View.Backs, not_not]
  refine List.filter_eq_nil_iff.2 fun m hm => ?_
  simp [(ha.rest m hm).2 k]

/-- With no tile to wait for, the request goes on. -/
theorem done (hd : Directory cfg (popped v t ms) h') (hm : h'.mshr = some { e with pending := true }) (ho : tiles = {t}) :
    Safe cfg (popped v t ms) h' toMem fromMem :=
  ⟨ha.tile, hd, ha.entries hm rfl, .inl fun _ => ha.still (by simp [ho]), fun hp => absurd hp ha.quiet⟩

/-- A downgrade is for the owner alone. -/
theorem alone (hp : type ≠ .inv) : tiles = {t} := by
  obtain ⟨o, ho, -⟩ := ha.forwarding.owner hp
  obtain rfl : t = o := by simpa [show tiles = {o} from ho] using ha.due
  exact ho

/-- Of a line that is owned only this tile had anything, and it has no write-back of it under way. -/
theorem owned (hme : (h.lines.line e.way).mesi = .e) (hp : type ≠ .inv) (u : Fin n) (k : BitVec 2) :
    ¬(popped v t ms u).Fetches (h.lines.tag e.way, k) ∧ ¬(popped v t ms u).Backs (h.lines.tag e.way, k) ∧
      (((popped v t ms u).line (h.lines.tag e.way, k)).Reads → u = t) ∧
      (h.lines.line e.way).di = .data ∧ (h.lines.line e.way).owner = t.val := by
  have hline := ha.safe.directory.line e.way ha.forwarding.way ha.forwarding.valid
  simp only [LineOk, hme] at hline
  obtain ⟨hdi, -, o, ho, hall⟩ := hline
  have hot : o = t := by
    obtain ⟨o', ho', hm⟩ := ha.forwarding.owner hp
    obtain rfl : t = o' := by simpa [show tiles = {o'} from ho'] using ha.due
    rcases hm with ⟨-, hm⟩ | hm
    · exact Fin.ext (ho.symm.trans hm)
    · rw [hme] at hm
      cases hm
  subst hot
  refine ⟨fun h => (hall u k).1 ((ha.shrinks u _).fetches h), fun h => ?_,
    fun h => ((hall u k).2 (.inl ((ha.shrinks u _).reads h))).1, hdi, ho⟩
  by_cases hu : u = o
  · subst hu
    exact ha.no_back h
  · rw [popped, Function.update_of_ne hu] at h
    exact hu ((hall u k).2 (.inr h)).1

theorem no_writes (hp : type = .load) : ¬((popped v t ms t).line (h.lines.tag e.way, k)).Writes := by
  have := (ha.acked.2.2 k).1
  rw [if_pos hp] at this
  exact fun h => this ((ha.shrinks t _).writes h)

theorem no_reads (hp : type ≠ .load) : ¬((popped v t ms t).line (h.lines.tag e.way, k)).Reads := by
  have := (ha.acked.2.2 k).1
  rw [if_neg hp] at this
  exact fun h => this ((ha.shrinks t _).reads h)

end

section Invalidation

variable (ha : Acking cfg v h toMem fromMem e .inv tiles t ms)
include ha

/-- The tiles that have acknowledged an invalidation have nothing of the line. -/
theorem given_up (hu : u ∉ tiles.erase t) (k : BitVec 2) : ¬((popped v t ms u).line (h.lines.tag e.way, k)).Reads ∧
    ¬(popped v t ms u).Fetches (h.lines.tag e.way, k) := by
  by_cases hut : u = t
  · subst hut
    exact ⟨ha.no_reads (by simp), fun h => (ha.acked.2.2 k).2 ((ha.shrinks u _).fetches h)⟩
  · obtain ⟨hr, hf⟩ := (ha.forwarding.inv rfl).2.2 u (fun h => hu (Finset.mem_erase.2 ⟨hut, h⟩)) k
    exact ⟨fun h => hr ((ha.shrinks u _).reads h), fun h => hf ((ha.shrinks u _).fetches h)⟩

theorem gone_of_one (ho : (h.lines.line e.way).owner = 1) : Gone (popped v t ms) (h.lines.tag e.way) ∧ tiles = {t} := by
  obtain ⟨hms, hcard, -⟩ := ha.forwarding.inv rfl
  have htiles : tiles = {t} := card_of_owner ha.due (hcard.symm.trans ho)
  have hline := (ha.safe.directory.shrink ha.shrinks).line e.way ha.forwarding.way ha.forwarding.valid
  simp only [LineOk, hms] at hline
  refine ⟨fun u k => ?_, htiles⟩
  obtain ⟨hr, hf⟩ := ha.given_up (u := u) (by simp [htiles]) k
  exact ⟨hr, hf, (hline u k).2.1⟩

/-- More tiles have to acknowledge. -/
theorem count (htag : h'.lines.tag = h.lines.tag)
    (hl : h'.lines.line = Function.update h.lines.line e.way
      { h.lines.line e.way with owner := ((h.lines.line e.way).owner + (2 ^ cfg.ownerBits - 1)) % 2 ^ cfg.ownerBits })
    (hdir : h'.dir = h.dir) (hm : h'.mshr = some e) : Safe cfg (popped v t ms) h' toMem fromMem := by
  have hf := ha.forwarding
  have hd := ha.safe.directory.shrink ha.shrinks
  obtain ⟨hms', hcard, -⟩ := hf.inv rfl
  have hmesi : (h'.lines.line e.way).mesi = .s := by rw [hl, Function.update_self]; exact hms'
  have hdi : (h'.lines.line e.way).di = (h.lines.line e.way).di := by rw [hl, Function.update_self]
  have hvalid : h'.Valid e.way := by
    have := hf.valid
    simpa only [CacheSet.Valid, hl, Function.update_self] using this
  have hdirectory : Directory cfg (popped v t ms) h' := by
    have hline := hd.line e.way hf.way hf.valid
    refine hd.write hf.way hf.valid htag (fun way hne => by rw [hl, Function.update_of_ne hne]) (fun way _ => by rw [hdir])
      (fun u tag k _ => .refl _ _) (fun _ => ?_) fun hnv => absurd hvalid hnv
    simp only [LineOk, hms', hmesi, hdi, hdir] at hline ⊢
    exact hline
  have howner : (h'.lines.line e.way).owner = (tiles.erase t).card % 2 ^ cfg.ownerBits := by
    have h0 : 0 < tiles.card := Finset.card_pos.2 ⟨t, ha.due⟩
    rw [hl, Function.update_self]
    simp only [hcard, Finset.card_erase_of_mem ha.due]
    exact count_down h0 ((card_finset_fin_le tiles).trans cfg.tiles_le)
  refine ⟨ha.tile, hdirectory, ha.entries hm rfl, .inr ⟨e, ⟨.inv, tiles.erase t⟩, hm, hf.waits, hf.notGuard, hf.way, hvalid,
    fun _ => ⟨hmesi, howner, fun u hu k => ?_⟩, fun hp => absurd rfl hp, fun u hu => ?_, fun u hu => ha.still hu⟩,
    fun hp => absurd hp ha.quiet⟩
  · rw [htag]
    exact ha.given_up hu k
  · obtain ⟨hut, hu⟩ := Finset.mem_erase.1 hu
    rw [popped, Function.update_of_ne hut, htag, hdi]
    exact hf.due u hu

end Invalidation

/-- The owner keeps the line to read. -/
theorem downgrade (ha : Acking cfg v h toMem fromMem e .load tiles t ms) {vd : L2.Vd}
    (hme : (h.lines.line e.way).mesi = .e) (hvd : vd = (h.lines.line e.way).vd ∨ vd = .dirty)
    (htag : h'.lines.tag = h.lines.tag)
    (hl : h'.lines.line = Function.update h.lines.line e.way { h.lines.line e.way with mesi := .s, vd := vd, owner := 0 })
    (hdir : h'.dir = Function.update h.dir e.way (fun t => t.val == (h.lines.line e.way).owner))
    (hm : h'.mshr = some { e with pending := true }) : Safe cfg (popped v t ms) h' toMem fromMem := by
  have hf := ha.forwarding
  refine ha.done ((ha.safe.directory.shrink ha.shrinks).write hf.way hf.valid htag
    (fun way hne => by rw [hl, Function.update_of_ne hne]) (fun way hne => by rw [hdir, Function.update_of_ne hne])
    (fun u tag k _ => .refl _ _) (fun _ => ?_) fun hnv => ?_) hm (ha.alone (by simp))
  · rw [hl, hdir, Function.update_self, Function.update_self]
    intro u k
    obtain ⟨hft, hb, hr, hdi, ho⟩ := ha.owned hme (by simp) u k
    refine ⟨fun h => ?_, hb, fun h => ⟨?_, hdi⟩, fun h => absurd h hft⟩
    · obtain rfl := hr h.reads
      exact ha.no_writes rfl h
    · simp [hr h, ho]
  · refine absurd ?_ hnv
    have := hf.valid
    simp only [CacheSet.Valid, hl, Function.update_self] at this ⊢
    rcases hvd with rfl | rfl
    · exact this
    · exact .inr rfl

/-- Nobody has the line any more. -/
theorem release (ha : Acking cfg v h toMem fromMem e type tiles t ms) {vd : L2.Vd}
    (hg : Gone (popped v t ms) (h.lines.tag e.way) ∧ tiles = {t}) (htag : h'.lines.tag = h.lines.tag)
    (hl : h'.lines.line = Function.update h.lines.line e.way
      { h.lines.line e.way with mesi := .i, vd := vd, subline := 0, owner := 0 })
    (hdir : ∀ way ≠ e.way, h'.dir way = h.dir way) (hm : h'.mshr = some { e with pending := true }) :
    Safe cfg (popped v t ms) h' toMem fromMem := by
  have hf := ha.forwarding
  refine ha.done ((ha.safe.directory.shrink ha.shrinks).write hf.way hf.valid htag
    (fun way hne => by rw [hl, Function.update_of_ne hne]) hdir (fun u tag k _ => .refl _ _)
    (fun _ => hg.1.lineOk ?_) fun _ => ⟨?_, hg.1⟩) hm hg.2
  · rw [hl, Function.update_self]
  · rw [hl, Function.update_self]

theorem gone_of_owned (ha : Acking cfg v h toMem fromMem e .store tiles t ms) (hme : (h.lines.line e.way).mesi = .e) :
    Gone (popped v t ms) (h.lines.tag e.way) ∧ tiles = {t} := by
  refine ⟨fun u k => ?_, ha.alone (by simp)⟩
  obtain ⟨hft, hb, hr, -, -⟩ := ha.owned hme (by simp) u k
  refine ⟨fun h => ?_, hft, hb⟩
  obtain rfl := hr h
  exact ha.no_reads (by simp) h

theorem next (ha : Acking cfg v h toMem fromMem e type tiles t ms) (hl : LastAck cfg h e type h') :
    Safe cfg (popped v t ms) h' toMem fromMem := by
  cases hl with
  | gone hp hmi hlines hdir hm =>
      exact ha.done ((ha.safe.directory.shrink ha.shrinks).congr hlines hdir) hm (ha.alone hp)
  | downgrade vd hme hvd htag hl hdir hm => exact ha.downgrade hme hvd htag hl hdir hm
  | release vd hp hvd htag hl hdir hm =>
      rcases hp with ⟨rfl, hme⟩ | ⟨rfl, ho⟩
      · exact ha.release (ha.gone_of_owned hme) htag hl hdir hm
      · exact ha.release (ha.gone_of_one ho) htag hl hdir hm
  | count ho htag hl hdir hm => exact ha.count htag hl hdir hm

end Acking

/-- A message comes to pipeline 2. -/
theorem Safe.answer (hs : Safe cfg v h toMem fromMem) {m : Noc3} {ms : List Noc3} (hn : (v t).noc3 = m :: ms)
    (ha : h.answer cfg m = some h') : Safe cfg (Function.update v t { v t with noc3 := ms }) h' toMem fromMem := by
  cases m with
  | writeBack tag k data =>
      cases ha
      exact hs.writeBack hn
  | fwdAck type k last data =>
      obtain ⟨e, he, ha⟩ := Option.bind_eq_some_iff.1 ha
      have hns : ¬(v t).Still := by
        intro h0
        have := h0.2 _ (by rw [hn]; exact List.mem_cons_self)
        cases this
      obtain h0 | ⟨e', ⟨ptype, tiles⟩, he', hf⟩ := hs.phase
      · exact absurd (h0 t) hns
      obtain rfl := Option.some.inj (he.symm.trans he')
      have ht : t ∈ tiles := by
        by_contra ht
        exact hns (hf.still t ht)
      rcases hf.due t ht with ⟨-, hack⟩ | hx
      · have := hack _ (by rw [hn]; exact List.mem_cons_self)
        cases this
      rcases hx.head hn rfl with ⟨k', d', heq⟩ | ⟨⟨k', d', heq⟩, hms⟩
      · obtain ⟨rfl, rfl, rfl, rfl⟩ := Noc3.fwdAck.inj heq
        exact hs.fwdAck_first he hf hn ha
      · obtain ⟨rfl, rfl, rfl, rfl⟩ := Noc3.fwdAck.inj heq
        exact Acking.next ⟨hs, he, hf, ht, hx, ⟨_, _, hn⟩, hms⟩ (fwdAck_last ha)

/-! ## The memory, and guards that are tried again -/

/-- An entry becomes pending. -/
theorem Safe.pend (hs : Safe cfg v h toMem fromMem) (he : h.mshr = some e) (h0 : ∀ t, (v t).Still) (hd : Directory cfg v h')
    (hm : h'.mshr = some { e with pending := true }) {fromMem' : List MemAck} (ha : awaited toMem fromMem' = 0) :
    Safe cfg v h' toMem fromMem' := by
  refine ⟨hs.tile, hd, fun e' he' => ?_, .inl h0, fun hp => ?_⟩
  · obtain rfl := Option.some.inj (hm.symm.trans he')
    exact hs.entry e he
  · omega

/-- The answer of the memory comes. -/
theorem Safe.fill {m : MemAck} (hs : Safe cfg v h toMem (m :: fromMem)) (he : h.mshr = some e) :
    Safe cfg v (h.fill e m) toMem fromMem := by
  obtain ⟨h0, e', he', hf⟩ := hs.memory (by simp [awaited])
  obtain rfl := Option.some.inj (he.symm.trans he')
  have ha : awaited toMem fromMem = 0 := by
    have := hf.one
    simp only [awaited, List.length_cons] at this ⊢
    omega
  have hd := hs.directory
  cases m with
  | ncStore =>
      have hd' : Directory cfg v (h.fill e .ncStore) := hd.congr rfl rfl
      exact hs.pend he h0 hd' rfl ha
  | load data =>
      obtain ⟨hw, hnv, habs⟩ := hf.line (.inr ⟨data, List.mem_cons_self⟩)
      have hmi := hd.invalid e.way hnv
      refine hs.pend he h0 ⟨?_, ?_, ?_, ?_, ?_⟩ rfl ha
      · intro way hway way' hway' hv hv' ht
        by_cases h1 : way = e.way <;> by_cases h2 : way' = e.way
        · rw [h1, h2]
        · simp only [CacheSet.Valid, CacheSet.fill, h1, h2, Function.update_self, ne_eq, not_false_eq_true,
            Function.update_of_ne] at hv' ht
          have := (CacheSet.Valid.hit hv' hway').2
          rw [← ht, habs way' hway'] at this
          cases this
        · simp only [CacheSet.Valid, CacheSet.fill, h1, h2, Function.update_self, ne_eq, not_false_eq_true,
            Function.update_of_ne] at hv ht
          have := (CacheSet.Valid.hit hv hway).2
          rw [ht, habs way hway] at this
          cases this
        · simp only [CacheSet.Valid, CacheSet.fill, h1, h2, ne_eq, not_false_eq_true, Function.update_of_ne] at hv hv' ht
          exact hd.unique way hway way' hway' hv hv' ht
      · intro way hv
        by_cases h1 : way = e.way
        · simp [CacheSet.Valid, CacheSet.fill, h1] at hv
        · simp only [CacheSet.Valid, CacheSet.fill, ne_eq, h1, not_false_eq_true, Function.update_of_ne] at hv ⊢
          exact hd.invalid way hv
      · intro way
        by_cases h1 : way = e.way
        · simp [CacheSet.fill, h1, hmi]
        · simpa [CacheSet.fill, h1] using hd.broadcast way
      · intro way hway hv
        by_cases h1 : way = e.way
        · refine Gone.lineOk ?_ (by simp [CacheSet.fill, h1, hmi])
          simpa [CacheSet.fill, h1] using hd.absent _ habs
        · simp only [CacheSet.Valid, CacheSet.fill, ne_eq, h1, not_false_eq_true, Function.update_of_ne] at hv ⊢
          exact hd.line way hway hv
      · intro tag habs'
        refine hd.absent tag fun way hway => ?_
        by_cases h1 : way = e.way
        · by_contra hhit
          have hh : Hit cfg h tag way := ⟨hway, by simpa using hhit⟩
          exact hnv (h1 ▸ hh.valid)
        · have := habs' way hway
          simpa [CacheSet.fill, L2.LineSet.tagHitWay, h1] using this

theorem Safe.retry (hs : Safe cfg v h toMem fromMem) (he : h.mshr = some e) (hr : h.retry e = some h') :
    Safe cfg v h' toMem fromMem := by
  unfold CacheSet.retry at hr
  split at hr
  · rename_i hg
    cases hr
    have hd' : Directory cfg v { h with mshr := some { e with pending := true } } := hs.directory.congr rfl rfl
    refine hs.pend he ?_ hd' rfl ?_
    · obtain h0 | ⟨e', p, he', hf⟩ := hs.phase
      · exact h0
      · obtain rfl := Option.some.inj (he.symm.trans he')
        exact absurd hg hf.notGuard
    · by_contra ha
      obtain ⟨-, e', he', hf⟩ := hs.memory (Nat.pos_of_ne_zero ha)
      obtain rfl := Option.some.inj (he.symm.trans he')
      exact hf.notGuard hg
  · cases hr

/-- The memory takes a message. -/
theorem Safe.mem (hs : Safe cfg v h toMem fromMem) {toMem' : List ToMem} {fromMem' : List MemAck}
    (ha : awaited toMem' fromMem' = awaited toMem fromMem)
    (hl : (∃ tag, .load tag ∈ toMem') ∨ (∃ data, .load data ∈ fromMem') →
      (∃ tag, .load tag ∈ toMem) ∨ ∃ data, .load data ∈ fromMem) :
    Safe cfg v h toMem' fromMem' := by
  refine ⟨hs.tile, hs.directory, hs.entry, hs.phase, fun hp => ?_⟩
  rw [ha] at hp
  obtain ⟨h0, e, he, hf⟩ := hs.memory hp
  exact ⟨h0, e, he, ha.trans hf.one, hf.waits, hf.notGuard, fun h => hf.line (hl h)⟩

end OpenPiton.Coherence
