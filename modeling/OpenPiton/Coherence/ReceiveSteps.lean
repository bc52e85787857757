import OpenPiton.Coherence.TileSteps

namespace OpenPiton.Coherence

open L2 (Block Request Noc2 Noc3 MsgType CacheType FwdType CacheSet SetCfg Entry ToMem MemAck)
open L15 (Mesi MshrType)

variable {n : Nat} {t : Fin n} {x : View n} {tile : Tile} {m : Noc2} {ms : List Noc2} {acks : List Noc3}

namespace View

/-- A tile after it has taken a message. -/
def received (x : View n) (tile : Tile) (ms : List Noc2) (acks : List Noc3) : View n :=
  ⟨tile, x.queue, ms, x.noc3 ++ acks⟩

theorem Evolves.answered (hn : x.noc2 = m :: ms) (hm : m.isForward = false)
    (hs : ∀ a, x.Shrinks a (x.received tile ms [])) : x.Evolves (x.received tile ms []) where
  shrinks := hs
  still h := ⟨fun m' hm' => h.1 m' (by simp [hn, show m' ∈ ms from hm']), by simpa [received] using h.2⟩
  due type tag di _ h := by
    rcases h with ⟨⟨l, w, hl, hf, hv⟩, ha⟩ | ⟨hf, hr, hlost⟩
    · refine .inl ⟨?_, by simpa [received] using ha⟩
      cases l with
      | nil =>
          rw [hl, List.nil_append] at hn
          obtain ⟨rfl, -⟩ := List.cons.inj hn
          cases hm
      | cons m' l =>
          rw [hl, List.cons_append] at hn
          obtain ⟨-, rfl⟩ := List.cons.inj hn
          refine ⟨l, w, rfl, fun m'' h' => hf m'' (by simp [h']), ?_⟩
          split at hv
          · rename_i ht
            rw [if_pos ht, hv]
          · rename_i ht
            rw [if_neg ht]
            exact ⟨hv.1, hv.2.1, fun k hk => hv.2.2 k ((hs (tag, k)).reads hk)⟩
    · refine .inr ⟨fun m' hm' => hf m' (by simp [hn, show m' ∈ ms from hm']), by simpa [received] using hr, fun k' => ?_⟩
      obtain ⟨h1, h2⟩ := hlost k'
      refine ⟨?_, fun h => h2 ((hs (tag, k')).fetches h)⟩
      split
      · rename_i ht
        rw [if_pos ht] at h1
        exact fun h => h1 ((hs (tag, k')).writes h)
      · rename_i ht
        rw [if_neg ht] at h1
        exact fun h => h1 ((hs (tag, k')).reads h)
  queue q l h := ⟨l, h⟩

/-- A line that a message leaves alone. -/
theorem Shrinks.received {a : Addr} (hl : (x.received tile ms acks).line a = x.line a)
    (hf : (x.received tile ms acks).Fetches a → x.Fetches a) : x.Shrinks a (x.received tile ms acks) := by
  refine ⟨?_, ?_, hf, ?_⟩
  · rw [hl]
    exact id
  · rw [hl]
    exact id
  · rw [Backs, hl]
    exact .inl

end View

/-! ## Answers -/

theorem Slot.filled_mesi (s : Slot) (y : Mesi) (d : Block) (c : Copy) :
    (s.filled y d c).mesi = c.mesi ∨ (s.filled y d c).mesi = y := by
  unfold Slot.filled
  split
  · exact .inl rfl
  · split
    · exact .inr rfl
    · split <;> exact .inr rfl

namespace TileLine

variable {l : TileLine n} {r : Noc2} {rs : List Noc2}

theorem reads_filled (hr : l.answers = r :: rs) (s : Slot) (d : Block) :
    Reads { l with copy := s.filled r.mesi d l.copy, mshr := none, answers := rs } → l.Reads := by
  rintro (h | ⟨m, hm, h⟩)
  · rcases s.filled_mesi r.mesi d l.copy with he | he
    · exact .inl (he ▸ h)
    · exact .inr ⟨r, by simp [hr], he ▸ h⟩
  · exact .inr ⟨m, by simp [hr, show m ∈ rs from hm], h⟩

theorem writes_filled (hr : l.answers = r :: rs) (s : Slot) (d : Block) :
    Writes { l with copy := s.filled r.mesi d l.copy, mshr := none, answers := rs } → l.Writes := by
  rintro (h | ⟨m, hm, h⟩)
  · rcases s.filled_mesi r.mesi d l.copy with he | he
    · exact .inl (he ▸ h)
    · exact .inr ⟨r, by simp [hr], he ▸ h⟩
  · exact .inr ⟨m, by simp [hr, show m ∈ rs from hm], h⟩

end TileLine

/-- Data for the MSHR of a line. -/
theorem dataAck_keep (hl : Local t x) {mshrType : MshrType} {a : Addr} {y : Mesi} {data : List Block}
    (hn : x.noc2 = .dataAck mshrType a.1 a.2 y data :: ms) (ht : mshrType ≠ .ifill) :
    Local t (x.received (x.tile.dataAck mshrType a y data) ms []) ∧
      x.Evolves (x.received (x.tile.dataAck mshrType a y data) ms []) := by
  have hans (b : Addr) : (Noc2.dataAck mshrType a.1 a.2 y data).answers b = (a == b) := by
    simp [Noc2.answers, ht]
  have hr : (x.line a).answers = .dataAck mshrType a.1 a.2 y data :: ms.filter (·.answers a) := by
    simp [View.line, hn, hans]
  obtain ⟨⟨s, hs, hok, hby, -⟩, -, -⟩ := (hl.line a).of_answer hr
  have hns : s.accepts .ncStore = false := by
    simp only [Slot.answeredBy] at hby
    simp only [Slot.accepts]
    cases hnc : s.control.nc
    · simp
    · simp only [hnc, if_true, Bool.and_eq_true, Bool.or_eq_true] at hby
      rcases hby.2 with h | h <;> simp [h]
  have hline (b : Addr) : (x.received (x.tile.dataAck mshrType a y data) ms []).line b =
      if b = a then
        { x.line b with copy := s.filled y (data.headD 0) (x.line b).copy, mshr := none, answers := ms.filter (·.answers a) }
      else x.line b := by
    rw [Tile.dataAck_eq hs hok hns ht]
    by_cases hb : b = a
    · subst hb
      simp [View.received, View.line]
    · have hab : (a == b) = false := by simpa using Ne.symm hb
      simp [View.received, View.line, hb, hn, hans, hab]
  have hfetch (b : Addr) (h : (x.received (x.tile.dataAck mshrType a y data) ms []).Fetches b) : x.Fetches b := by
    rw [Tile.dataAck_eq hs hok hns ht] at h
    refine h.imp id ?_
    rintro ⟨m, hm, hg⟩
    exact ⟨m, by simp [hn, show m ∈ ms from hm], hg⟩
  refine ⟨⟨fun b => ?_, hl.typed⟩, .answered hn rfl fun b => ?_⟩
  · rw [hline]
    split
    · rename_i hb
      subst hb
      exact (hl.line b).filled hr hs rfl _ ⟨_, _, _, _, _, rfl⟩
    · exact hl.line b
  · by_cases hb : b = a
    · subst hb
      have hl' := (hline b).trans (if_pos rfl)
      refine ⟨?_, ?_, hfetch b, ?_⟩
      · rw [hl']
        exact TileLine.reads_filled hr s _
      · rw [hl']
        exact TileLine.writes_filled hr s _
      · rw [View.Backs, hl']
        exact .inl
    · exact .received (by rw [hline, if_neg hb]) (hfetch b)

/-- An instruction line. -/
theorem ifillAck_keep (hl : Local t x) {a : Addr} {y : Mesi} {data : List Block}
    (hn : x.noc2 = .dataAck .ifill a.1 a.2 y data :: ms) :
    Local t (x.received (x.tile.dataAck .ifill a y data) ms []) ∧
      x.Evolves (x.received (x.tile.dataAck .ifill a y data) ms []) := by
  have hline (b : Addr) : (x.received (x.tile.dataAck .ifill a y data) ms []).line b = x.line b := by
    simp [View.received, View.line, Tile.dataAck, hn, Noc2.answers]
  refine ⟨⟨fun b => ?_, hl.typed⟩, .answered hn rfl fun b => .received (hline b) ?_⟩
  · rw [hline]
    exact hl.line b
  · rintro (h | ⟨m, hm, hg⟩)
    · by_cases hb : b.1 = a.1 ∧ b.2.toNat / 2 = a.2.toNat / 2
      · exact .inr ⟨_, by rw [hn]; exact List.mem_cons_self, by simp [Noc2.givesInstr, hb]⟩
      · have h' : ((x.tile.dataAck .ifill a y data).instr b).isSome = true := h
        rw [Tile.instr_dataAck hb] at h'
        exact .inl h'
    · exact .inr ⟨m, by simp [hn, show m ∈ ms from hm], hg⟩

theorem nodataAck_keep (hl : Local t x) {mshrType : MshrType} {a : Addr} (hn : x.noc2 = .nodataAck mshrType a.1 a.2 :: ms) :
    Local t (x.received (x.tile.nodataAck mshrType a) ms []) ∧
      x.Evolves (x.received (x.tile.nodataAck mshrType a) ms []) := by
  have hfetch (tile : Tile) (hi : tile.instr = x.tile.instr) (b : Addr)
      (h : (x.received tile ms []).Fetches b) : x.Fetches b := by
    rcases h with h | ⟨m, hm, hg⟩
    · exact .inl (hi ▸ h)
    · exact .inr ⟨m, by simp [hn, show m ∈ ms from hm], hg⟩
  by_cases ht : mshrType = .st
  · have hans (b : Addr) : (Noc2.nodataAck mshrType a.1 a.2).answers b = (a == b) := by simp [Noc2.answers, ht]
    have hr : (x.line a).answers = .nodataAck mshrType a.1 a.2 :: ms.filter (·.answers a) := by
      simp [View.line, hn, hans]
    have hline (b : Addr) : (x.received (x.tile.nodataAck mshrType a) ms []).line b =
        if b = a then { x.line b with mshr := none, answers := ms.filter (·.answers a) } else x.line b := by
      rw [Tile.nodataAck_eq ht]
      by_cases hb : b = a
      · subst hb
        simp [View.received, View.line]
      · have hab : (a == b) = false := by simpa using Ne.symm hb
        simp [View.received, View.line, hb, hn, hans, hab]
    rw [Tile.nodataAck_eq ht] at hline ⊢
    refine ⟨⟨fun b => ?_, hl.typed⟩, .answered hn rfl fun b => ?_⟩
    · rw [hline]
      split
      · rename_i hb
        subst hb
        exact (hl.line b).acked hr
      · exact hl.line b
    · by_cases hb : b = a
      · subst hb
        have hl' := (hline b).trans (if_pos rfl)
        refine ⟨?_, ?_, hfetch _ rfl b, ?_⟩
        · rw [hl']
          rintro (h | ⟨m, hm, h⟩)
          · exact .inl h
          · exact .inr ⟨m, by rw [hr]; exact List.mem_cons_of_mem _ hm, h⟩
        · rw [hl']
          rintro (h | ⟨m, hm, h⟩)
          · exact .inl h
          · exact .inr ⟨m, by rw [hr]; exact List.mem_cons_of_mem _ hm, h⟩
        · rw [View.Backs, hl']
          exact .inl
      · exact .received (by rw [hline, if_neg hb]) (hfetch _ rfl b)
  · have hline (b : Addr) : (x.received x.tile ms []).line b = x.line b := by
      simp [View.received, View.line, hn, Noc2.answers, ht]
    rw [Tile.nodataAck_eq_self ht]
    refine ⟨⟨fun b => ?_, hl.typed⟩, .answered hn rfl fun b => .received (hline b) (hfetch _ rfl b)⟩
    rw [hline]
    exact hl.line b

/-! ## Forwards -/

theorem lastSubline_lt : ∀ v : BitVec 4, L15.State.lastSubline v < 4 := by decide

theorem le_lastSubline : ∀ (v : BitVec 4) (k : BitVec 2), v.getLsbD k.toNat = true → k.toNat ≤ L15.State.lastSubline v := by
  decide

theorem allOnes_getLsbD : ∀ k : BitVec 2, (BitVec.allOnes 4).getLsbD k.toNat = true := by decide

/-- The acknowledgements end with the last one. -/
theorem acks_eq (type : FwdType) (v : BitVec 4) (c : BitVec 2 → Copy)
    (hc : ∀ k, L15.State.lastSubline v < k.toNat → (c k).mesi ≠ .m) :
    ∃ ms k d, ([0, 1, 2, 3] : List (BitVec 2)).flatMap (fun k => fwdAckOf type v k (c k)) = ms ++ [.fwdAck type k true d] ∧
      ∀ m ∈ ms, ∃ k d, m = Noc3.fwdAck type k false d := by
  have hlt := lastSubline_lt v
  have hsome (k : BitVec 2) (h : L15.State.lastSubline v ≠ k.toNat) :
      ∀ m ∈ fwdAckOf type v k (c k), ∃ k d, m = Noc3.fwdAck type k false d := by
    intro m hm
    simp only [fwdAckOf, if_neg h] at hm
    split at hm
    · exact ⟨_, _, List.mem_singleton.1 hm⟩
    · cases hm
  have hnone (k : BitVec 2) (h : L15.State.lastSubline v < k.toNat) : fwdAckOf type v k (c k) = [] := by
    simp [fwdAckOf, h.ne, hc k h]
  have hlast (k : BitVec 2) (h : L15.State.lastSubline v = k.toNat) :
      fwdAckOf type v k (c k) = [.fwdAck type k true (c k).dirty] := by
    simp [fwdAckOf, h]
  have hmem (l : List (BitVec 2)) (hl : ∀ k ∈ l, L15.State.lastSubline v ≠ k.toNat) :
      ∀ m ∈ l.flatMap (fun k => fwdAckOf type v k (c k)), ∃ k d, m = Noc3.fwdAck type k false d := by
    intro m hm
    obtain ⟨k, hk, hm⟩ := List.mem_flatMap.1 hm
    exact hsome k (hl k hk) m hm
  obtain h | h | h | h : L15.State.lastSubline v = 0 ∨ L15.State.lastSubline v = 1 ∨ L15.State.lastSubline v = 2 ∨
      L15.State.lastSubline v = 3 := by omega
  · refine ⟨([] : List (BitVec 2)).flatMap fun k => fwdAckOf type v k (c k), 0, (c 0).dirty, ?_, hmem [] (by simp)⟩
    simp only [List.flatMap_cons, List.flatMap_nil, hlast 0 h, hnone 1 (by simp [h]), hnone 2 (by simp [h]),
      hnone 3 (by simp [h]), List.append_nil, List.nil_append]
  · refine ⟨([0] : List (BitVec 2)).flatMap fun k => fwdAckOf type v k (c k), 1, (c 1).dirty, ?_, hmem [0] (by simp [h])⟩
    simp only [List.flatMap_cons, List.flatMap_nil, hlast 1 h, hnone 2 (by simp [h]), hnone 3 (by simp [h]), List.append_nil]
  · refine ⟨([0, 1] : List (BitVec 2)).flatMap fun k => fwdAckOf type v k (c k), 2, (c 2).dirty, ?_, hmem [0, 1] (by simp [h])⟩
    simp only [List.flatMap_cons, List.flatMap_nil, hlast 2 h, hnone 3 (by simp [h]), List.append_nil, List.append_assoc]
  · refine ⟨([0, 1, 2] : List (BitVec 2)).flatMap fun k => fwdAckOf type v k (c k), 3, (c 3).dirty, ?_,
      hmem [0, 1, 2] (by simp [h])⟩
    simp only [List.flatMap_cons, List.flatMap_nil, hlast 3 h, List.append_nil, List.append_assoc]

theorem isAck_of_fwdAckOf {type : FwdType} {v : BitVec 4} {k : BitVec 2} {c : Copy} {m : Noc3} (hm : m ∈ fwdAckOf type v k c)
    (a : Addr) : m.isBack a = false := by
  unfold fwdAckOf at hm
  split at hm
  · rw [List.mem_singleton.1 hm, Noc3.isBack_fwdAck]
  · split at hm
    · rw [List.mem_singleton.1 hm, Noc3.isBack_fwdAck]
    · cases hm

theorem Copy.forwarded_mesi {c : Copy} {type : FwdType} (h : (c.forwarded type).mesi ≠ .i) : c.mesi ≠ .i := by
  intro hi
  simp [Copy.forwarded, hi, Mesi.me] at h

theorem Copy.forwarded_me {c : Copy} {type : FwdType} (h : (c.forwarded type).mesi.me = true) : c.mesi.me = true := by
  cases hc : c.mesi <;> cases type <;> simp [Copy.forwarded, hc, Mesi.me] at h ⊢

theorem Copy.forwarded_not_me {c : Copy} {type : FwdType} (h : type = .load) : (c.forwarded type).mesi.me = false := by
  subst h
  cases hc : c.mesi <;> simp [Copy.forwarded, Mesi.me, hc]

/-- A step that makes one acknowledgement of a forward. -/
theorem View.Evolves.forwarded {type : FwdType} {tag : Nat} {di : CacheType} {v : BitVec 4}
    (hn : x.noc2 = [.forward type tag v di])
    (hs : ∀ a, x.Shrinks a (x.received tile [] acks))
    (hd : (∀ k, ((x.line (tag, k)).Reads → di = .data) ∧ (x.Fetches (tag, k) → di = .ins)) →
      (x.received tile [] acks).Acked type tag) :
    x.Evolves (x.received tile [] acks) where
  shrinks := hs
  still h := absurd (h.1 _ (by rw [hn]; exact List.mem_cons_self)) (by simp [Noc2.isForward])
  due type' tag' di' hk h := by
    rcases h with ⟨⟨l, w, hl, -, -⟩, -⟩ | ⟨hf, -⟩
    · rw [hn] at hl
      obtain rfl : l = [] := by
        cases l with
        | nil => rfl
        | cons m l => simp at hl
      obtain ⟨rfl, rfl, rfl, rfl⟩ : type = type' ∧ tag = tag' ∧ v = w ∧ di = di' := by simpa using hl
      exact .inr (hd hk)
    · exact absurd (hf _ (by rw [hn]; exact List.mem_cons_self)) (by simp [Noc2.isForward])
  queue q l h := ⟨l, h⟩

/-- What is above the tile after its only message. -/
theorem fetches_received {tile : Tile} {acks : List Noc3} {b : Addr}
    (hi : (tile.instr b).isSome = true → (x.tile.instr b).isSome = true) (h : (x.received tile [] acks).Fetches b) :
    x.Fetches b := by
  rcases h with h | ⟨m, hm, -⟩
  · exact .inl (hi h)
  · cases hm

/-- A forward for data. -/
theorem forward_data_keep (hl : Local t x) {type : FwdType} {tag : Nat} {v : BitVec 4}
    (hn : x.noc2 = [.forward type tag v .data])
    (hv : if type = .inv then v = BitVec.allOnes 4
      else CacheType.data = .data ∧ v ≠ 0 ∧ ∀ k, (x.line (tag, k)).Reads → v.getLsbD k.toNat = true)
    (hack : ∀ m ∈ x.noc3, m.isAck = false) :
    Local t (x.received (x.tile.forward type tag v .data).1 [] (x.tile.forward type tag v .data).2) ∧
      x.Evolves (x.received (x.tile.forward type tag v .data).1 [] (x.tile.forward type tag v .data).2) := by
  have h0 : v ≠ 0 := by
    split at hv
    · rw [hv]
      decide
    · exact hv.2.1
  have hline (b : Addr) : (x.received (x.tile.forward type tag v .data).1 [] (x.tile.forward type tag v .data).2).line b =
      if b.1 = tag then
        { x.line b with
          copy := (x.line b).copy.forwarded type, mshr := (x.line b).mshr.map (Slot.forwarded · type) }
      else x.line b := by
    have hb : List.filter (fun m => Noc3.isBack m b) (x.tile.forward type tag v .data).2 = [] := by
      rw [Tile.forward_data h0, List.filter_eq_nil_iff]
      intro m hm
      obtain ⟨k, -, hm⟩ := List.mem_flatMap.1 hm
      simp [isAck_of_fwdAckOf hm]
    simp only [View.received, View.line, List.filter_append, hb, List.append_nil, hn, List.filter_nil]
    rw [Tile.forward_data h0]
    by_cases hb : b.1 = tag <;> simp [hb, Noc2.answers]
  have hbit (k : BitVec 2) (hr : (x.line (tag, k)).Reads) : v.getLsbD k.toNat = true := by
    split at hv
    · rw [hv]
      exact allOnes_getLsbD k
    · exact hv.2.2 k hr
  have hi (b : Addr) : ((x.tile.forward type tag v .data).1.instr b).isSome = true → (x.tile.instr b).isSome = true := by
    rw [Tile.forward_data h0]
    exact id
  refine ⟨⟨fun b => ?_, hl.typed⟩, .forwarded hn (fun b => ?_) fun hk => ⟨by simp [View.received], ?_, fun k => ?_⟩⟩
  · rw [hline]
    split
    · exact (hl.line b).forwarded type
    · exact hl.line b
  · by_cases hb : b.1 = tag
    · have hl' := (hline b).trans (if_pos hb)
      refine ⟨?_, ?_, fetches_received (hi b), ?_⟩
      · rw [hl']
        exact Or.imp Copy.forwarded_mesi id
      · rw [hl']
        exact Or.imp Copy.forwarded_me id
      · rw [View.Backs, hl']
        exact .inl
    · exact .received (by rw [hline, if_neg hb]) (fetches_received (hi b))
  · obtain ⟨l, k, d, heq, hl⟩ := acks_eq type v (fun k => x.tile.copy (tag, k)) fun k hk hm => by
      have := le_lastSubline v k (hbit k (.inl (by simp [View.line, hm])))
      omega
    refine ⟨x.noc3 ++ l, k, d, [], ?_, ?_, by simp⟩
    · simp only [View.received, Tile.forward_data h0, heq, List.append_assoc]
    · intro m hm ha
      rcases List.mem_append.1 hm with hm | hm
      · simp [hack m hm] at ha
      · exact hl m hm
  · have hl' := (hline (tag, k)).trans (if_pos rfl)
    refine ⟨?_, fun hf => ?_⟩
    · rw [hl']
      split
      · rename_i ht
        rintro (h | ⟨m, hm, -⟩)
        · exact absurd h (by simp [Copy.forwarded_not_me ht])
        · simp [View.line, hn, Noc2.answers] at hm
      · rename_i ht
        rintro (h | ⟨m, hm, -⟩)
        · exact h (by simp [Copy.forwarded, ht])
        · simp [View.line, hn, Noc2.answers] at hm
    · have := (hk k).2 (fetches_received (hi (tag, k)) hf)
      cases this

/-- One for instructions. -/
theorem forward_instr_keep (hl : Local t x) {tag : Nat} (hn : x.noc2 = [.forward .inv tag (BitVec.allOnes 4) .ins])
    (hack : ∀ m ∈ x.noc3, m.isAck = false) :
    Local t (x.received (x.tile.forward .inv tag (BitVec.allOnes 4) .ins).1 []
        (x.tile.forward .inv tag (BitVec.allOnes 4) .ins).2) ∧
      x.Evolves (x.received (x.tile.forward .inv tag (BitVec.allOnes 4) .ins).1 []
        (x.tile.forward .inv tag (BitVec.allOnes 4) .ins).2) := by
  rw [Tile.forward_instr]
  have hline (b : Addr) : (x.received { x.tile with instr := fun a => if a.1 = tag then none else x.tile.instr a } []
      [.fwdAck .inv 2 true none]).line b = x.line b := by
    simp [View.received, View.line, hn, Noc2.answers]
  have hi (b : Addr) : ((fun a => if a.1 = tag then none else x.tile.instr a) b : Option Block).isSome = true →
      (x.tile.instr b).isSome = true := by
    by_cases hb : b.1 = tag <;> simp [hb]
  refine ⟨⟨fun b => ?_, hl.typed⟩, .forwarded hn (fun b => ?_) fun hk => ⟨by simp [View.received], ?_, fun k => ⟨?_, ?_⟩⟩⟩
  · rw [hline]
    exact hl.line b
  · exact .received (hline b) (fetches_received (hi b))
  · exact ⟨x.noc3, 2, none, [], rfl, fun m hm ha => by simp [hack m hm] at ha, by simp⟩
  · simp only [reduceCtorEq, if_false]
    rw [hline]
    intro hr
    cases (hk k).1 hr
  · rintro (h | ⟨m, hm, -⟩)
    · simp [View.received] at h
    · cases hm

/-- A tile takes a forward that was sent to it. -/
theorem forward_keep (hl : Local t x) {type type' : FwdType} {tag tag' : Nat} {di di' : CacheType} {v : BitVec 4}
    (hn : x.noc2 = .forward type tag v di :: ms) (hs : x.Sent type' tag' di') :
    Local t (x.received (x.tile.forward type tag v di).1 ms (x.tile.forward type tag v di).2) ∧
      x.Evolves (x.received (x.tile.forward type tag v di).1 ms (x.tile.forward type tag v di).2) := by
  obtain ⟨⟨l, w, hl', hf, hv⟩, hack⟩ := hs
  obtain rfl : l = [] := by
    cases l with
    | nil => rfl
    | cons m l =>
        rw [hn, List.cons_append] at hl'
        obtain ⟨rfl, -⟩ := List.cons.inj hl'
        exact absurd (hf _ List.mem_cons_self) (by simp [Noc2.isForward])
  rw [hn, List.nil_append] at hl'
  obtain ⟨h1, rfl⟩ := List.cons.inj hl'
  obtain ⟨rfl, rfl, rfl, rfl⟩ := Noc2.forward.inj h1
  cases di with
  | data => exact forward_data_keep hl hn hv hack
  | ins =>
      have ht : type = .inv := by
        by_contra ht
        rw [if_neg ht] at hv
        cases hv.1
      subst ht
      rw [if_pos rfl] at hv
      subst hv
      exact forward_instr_keep hl hn hack

end OpenPiton.Coherence
