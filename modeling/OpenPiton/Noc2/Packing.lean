import OpenPiton.Noc2.BufOut

namespace OpenPiton.Noc2

open L15 (Word)
open Noc1 (Flit fieldLength)
open Noc3 (Width)
open Chunks (pieces pad)

section

variable {cfg : Cfg} {ps qs before after : List (List Word)}

theorem Packet.ne_nil {l : List Word} (h : Packet l) : l ≠ [] := by
  rintro rfl
  exact absurd h (by simp [Packet])

theorem flits_pos (w : Width) {l : List Word} (hl : l ≠ []) : flits w l ≠ [] := by
  intro hf
  have hp : pieces w.words l = [] := List.map_eq_nil_iff.mp hf
  have := Chunks.flatten_pieces (Noc3.Width.words_pos w) l
  rw [hp] at this
  exact hl this.symm

theorem toL15_append (cfg : Cfg) (ps qs : List (List Word)) : cfg.toL15 (ps ++ qs) = cfg.toL15 ps ++ cfg.toL15 qs :=
  List.filter_append ..

theorem toL15_singleton (cfg : Cfg) (l : List Word) :
    cfg.toL15 [l] = if cfg.routed (l.getD 0 0) then [l] else [] := by
  rw [Cfg.toL15, List.filter_singleton, Bool.cond_eq_ite]

theorem flatMap_flits (w : Width) (ls : List (List Word)) :
    ls.flatMap (flits w) = (ls.flatMap (pieces w.words)).map (pad w.words 0) := by
  rw [List.map_flatMap]
  rfl

/-- Two prefixes of a list of packets with the same words are the same. -/
theorem prefix_eq_of_flatten {α : Type*} {qs rs ps : List (List α)} (hq : qs <+: ps) (hr : rs <+: ps)
    (hne : ∀ l ∈ ps, l ≠ []) (h : qs.flatten = rs.flatten) : qs = rs := by
  have key {a b : List (List α)} (hab : a <+: b) (hb : b <+: ps) (h : a.flatten = b.flatten) : a = b := by
    obtain ⟨t, rfl⟩ := hab
    cases t with
    | nil => rw [List.append_nil]
    | cons x t =>
        have hx : x ≠ [] := hne x (hb.subset (by simp))
        have : (a.flatten).length = (a.flatten).length + (x.length + t.flatten.length) := by
          conv_lhs => rw [h]
          simp
        have := List.length_pos_iff.mpr hx
        omega
  rcases List.prefix_or_prefix_of_prefix hq hr with hqr | hrq
  · exact key hqr hr h
  · exact (key hrq hq h.symm).symm

end

namespace BufOut

variable {w : Width} {p : Bool} {b : BufOut} {queue : List Word} {readyOut : Bool}

theorem step_holds {m : Option Mode} {d : List Word} (h : b.buf.Holds bufOutSize queue)
    (hincr : b.rdPtrIncr w readyOut ≤ queue.length) :
    (b.step w p m d readyOut).buf.Holds bufOutSize
      (queue.drop (b.rdPtrIncr w readyOut) ++ (((m.filter (b.readyIn p)).map (Mode.words p d)).getD [])) := by
  refine Noc3.BufIn.fifoNext_holds h ?_ hincr
  cases m with
  | none => simpa using h.length_le
  | some m =>
      by_cases hr : b.readyIn p m = true
      · have hle := Mode.bufRdFlits_le p m
        have hc : b.buf.counter ≤ bufOutSize - m.bufRdFlits p := by simpa [readyIn] using hr
        rw [h.counter_eq] at hc
        simp only [Option.filter_some, hr, if_true, Option.map_some, Option.getD_some, Mode.length_words]
        unfold bufOutSize at hc ⊢
        omega
      · simpa [Option.filter_some, hr] using h.length_le

theorem mem_eq (h : b.buf.Holds bufOutSize queue) {k : Nat} (hk : k < queue.length) :
    b.buf.mem ((b.buf.rdPtr + k) % bufOutSize) = queue.getD k 0 := by
  rw [List.getD_eq_getElem _ _ hk]
  exact h.get k _ (List.getElem?_eq_getElem hk)

theorem lengthIn_eq (h : b.buf.Holds bufOutSize queue) (hq : queue ≠ []) :
    b.lengthIn = (fieldLength (queue.getD 0 0)).toNat := by
  have := mem_eq h (List.length_pos_iff.mpr hq)
  rw [Nat.add_zero, Nat.mod_eq_of_lt h.rd_lt] at this
  rw [lengthIn, this]

theorem validOut_iff (h : b.buf.Holds bufOutSize queue) :
    b.validOut w = true ↔ if b.ahead < w.words then b.ahead < queue.length else w.words ≤ queue.length := by
  rw [validOut, h.counter_eq]
  split <;> simp

theorem rdPtrIncr_le (h : b.buf.Holds bufOutSize queue) : b.rdPtrIncr w readyOut ≤ queue.length := by
  rw [rdPtrIncr]
  split
  case isTrue hv =>
    have hv := (validOut_iff h).mp (Bool.and_eq_true _ _ ▸ hv).1
    split at hv <;> rename_i hlt
    · rw [if_pos hlt]
      exact hv
    · rw [if_neg hlt]
      exact hv
  case isFalse => exact Nat.zero_le _

theorem dataOut_eq (h : b.buf.Holds bufOutSize queue) (hv : b.validOut w = true) :
    b.dataOut w true = pad w.words 0 (queue.take (b.rdPtrIncr w true)) := by
  have hle : b.rdPtrIncr w true ≤ _ := rdPtrIncr_le h
  have hpos : 0 < b.rdPtrIncr w true := by
    rw [rdPtrIncr, hv, Bool.true_and, if_pos rfl]
    have := Noc3.Width.words_pos w
    split <;> omega
  rw [dataOut, pad]
  apply List.map_congr_left
  intro k _
  by_cases hk : k < b.rdPtrIncr w true
  · rw [if_pos (.inr hk), mem_eq h (by omega), List.getD_eq_getElem?_getD, List.getD_eq_getElem?_getD,
      List.getElem?_take_of_lt hk]
  · rw [if_neg (by omega), List.getD_eq_default]
    rw [List.length_take]
    omega

end BufOut

/-- What has left of the packets: their pieces, those of them for the L1.5, and the words to come. In
a packet that is leaving, `remain` says how many words are to come. -/
inductive Leaving (cfg : Cfg) (ps : List (List Word)) (b : BufOut) (toL15 : Bool) :
    List (List Word) → List (List Word) → List Word → Prop
  | header {before after : List (List Word)} : ps = before ++ after → b.flitType = .header →
      Leaving cfg ps b toL15 (before.flatMap (pieces cfg.width.words))
        ((cfg.toL15 before).flatMap (pieces cfg.width.words)) after.flatten
  | body {before after cur : List (List Word)} {l rest : List Word} : ps = before ++ l :: after →
      b.flitType = .body → rest.length < l.length → pieces cfg.width.words l = cur ++ pieces cfg.width.words rest →
      rest.length = b.remain + 1 → toL15 = cfg.routed (l.getD 0 0) →
      Leaving cfg ps b toL15 (before.flatMap (pieces cfg.width.words) ++ cur)
        ((cfg.toL15 before).flatMap (pieces cfg.width.words) ++ if toL15 then cur else []) (rest ++ after.flatten)

/-- The packet `l` that the next flit is of, with the words `rest` of it to come. -/
structure Front (cfg : Cfg) (ps : List (List Word)) (b : BufOut) (toL15 : Bool) (done forwarded : List (List Word))
    (left : List Word) (before after cur : List (List Word)) (l rest : List Word) : Prop where
  packets : ps = before ++ l :: after
  pieces_eq : pieces cfg.width.words l = cur ++ pieces cfg.width.words rest
  length_rest : rest.length = b.ahead + 1
  header : b.flitType = .header → rest = l
  body : b.flitType = .body → toL15 = cfg.routed (l.getD 0 0) ∧ rest.length < l.length
  done_eq : done = before.flatMap (pieces cfg.width.words) ++ cur
  forwarded_eq : forwarded =
    (cfg.toL15 before).flatMap (pieces cfg.width.words) ++ if cfg.routed (l.getD 0 0) then cur else []
  left_eq : left = rest ++ after.flatten

namespace Leaving

variable {cfg : Cfg} {ps done forwarded : List (List Word)} {b : BufOut} {toL15 : Bool} {left queue : List Word}

theorem congr {b' : BufOut} (h : Leaving cfg ps b toL15 done forwarded left) (ht : b'.flitType = b.flitType)
    (hr : b'.remain = b.remain) : Leaving cfg ps b' toL15 done forwarded left := by
  cases h with
  | header hps hf => exact .header hps (ht.trans hf)
  | body hps hf hlt hpieces hlen hroute => exact .body hps (ht.trans hf) hlt hpieces (by rw [hr, hlen]) hroute

theorem done_left (h : Leaving cfg ps b toL15 done forwarded left) : done.flatten ++ left = ps.flatten := by
  have hpos := Noc3.Width.words_pos cfg.width
  cases h with
  | header hps => rw [Chunks.flatten_flatMap_pieces hpos, hps, List.flatten_append]
  | @body before after cur l rest hps _ _ hpieces =>
      have hl : cur.flatten ++ rest = l := by
        rw [← Chunks.flatten_pieces hpos l, hpieces, List.flatten_append, Chunks.flatten_pieces hpos]
      rw [List.flatten_append, Chunks.flatten_flatMap_pieces hpos, hps, List.flatten_append, List.flatten_cons, ← hl]
      simp only [List.append_assoc]

theorem done_prefix (h : Leaving cfg ps b toL15 done forwarded left) :
    done <+: ps.flatMap (pieces cfg.width.words) := by
  cases h with
  | @header before after hps => exact ⟨_, by rw [hps, List.flatMap_append]⟩
  | @body before after cur l rest hps _ _ hpieces =>
      refine ⟨pieces cfg.width.words rest ++ after.flatMap (pieces cfg.width.words), ?_⟩
      rw [hps, List.flatMap_append, List.flatMap_cons, hpieces]
      simp only [List.append_assoc]

theorem forwarded_prefix (h : Leaving cfg ps b toL15 done forwarded left) :
    forwarded <+: (cfg.toL15 ps).flatMap (pieces cfg.width.words) := by
  cases h with
  | @header before after hps => exact ⟨_, by rw [hps, toL15_append, List.flatMap_append]⟩
  | @body before after cur l rest hps _ _ hpieces _ hroute =>
      rw [hps, toL15_append, List.flatMap_append]
      apply (List.prefix_append_right_inj _).mpr
      cases hr : toL15 with
      | false => exact List.nil_prefix
      | true =>
          have hl : cfg.toL15 (l :: after) = l :: cfg.toL15 after := List.filter_cons_of_pos (by rw [← hroute, hr])
          rw [hl, List.flatMap_cons, hpieces, if_pos rfl, List.append_assoc]
          exact List.prefix_append _ _

theorem front (h : Leaving cfg ps b toL15 done forwarded left) (hb : b.buf.Holds bufOutSize queue)
    (hq : queue <+: left) (hne : b.flitType = .header → queue ≠ []) (hps : ∀ l ∈ ps, Packet l) :
    ∃ before after cur l rest, Front cfg ps b toL15 done forwarded left before after cur l rest := by
  cases h with
  | @header before after hcut hf =>
      have hafter : after ≠ [] := by
        rintro rfl
        exact hne hf (List.prefix_nil.mp hq)
      obtain ⟨l, after, rfl⟩ := List.exists_cons_of_ne_nil hafter
      have hl : Packet l := hps l (by rw [hcut]; simp)
      refine ⟨before, after, [], l, l, ⟨hcut, (List.nil_append _).symm, ?_, fun _ => rfl, fun hb => ?_,
        (List.append_nil _).symm, ?_, rfl⟩⟩
      · have hhead : queue.getD 0 0 = l.getD 0 0 := by
          obtain ⟨x, queue, rfl⟩ := List.exists_cons_of_ne_nil (hne hf)
          obtain ⟨y, l, rfl⟩ := List.exists_cons_of_ne_nil hl.ne_nil
          rw [List.flatten_cons, List.cons_append, List.cons_prefix_cons] at hq
          exact hq.1
        rw [BufOut.ahead, hf]
        change l.length = b.lengthIn + 1
        rw [BufOut.lengthIn_eq hb (hne hf), hhead]
        exact hl
      · rw [hf] at hb
        cases hb
      · rw [ite_self, List.append_nil]
  | @body before after cur l rest hcut hf hlt hpieces hlen hroute =>
      refine ⟨before, after, cur, l, rest, ⟨hcut, hpieces, ?_, fun hh => ?_, fun _ => ⟨hroute, hlt⟩, rfl, ?_, rfl⟩⟩
      · rw [BufOut.ahead, hf]
        exact hlen
      · rw [hf] at hh
        cases hh
      · rw [hroute]

end Leaving

namespace Front

variable {cfg : Cfg} {ps done forwarded before after cur : List (List Word)} {b : BufOut} {toL15 readyOut p : Bool}
  {left queue l rest : List Word} {m : Option Mode} {d : List Word}

theorem rdPtrIncr_eq (h : Front cfg ps b toL15 done forwarded left before after cur l rest)
    (hv : b.validOut cfg.width = true) : b.rdPtrIncr cfg.width true = min rest.length cfg.width.words := by
  have := h.length_rest
  rw [BufOut.rdPtrIncr, hv, Bool.true_and, if_pos rfl]
  split <;> omega

theorem words_eq (h : Front cfg ps b toL15 done forwarded left before after cur l rest) : cur.flatten ++ rest = l := by
  have hpos := Noc3.Width.words_pos cfg.width
  rw [← Chunks.flatten_pieces hpos l, h.pieces_eq, List.flatten_append, Chunks.flatten_pieces hpos]

theorem take_eq (h : Front cfg ps b toL15 done forwarded left before after cur l rest)
    (hv : b.validOut cfg.width = true) (hb : b.buf.Holds bufOutSize queue) (hq : queue <+: left) :
    queue.take (b.rdPtrIncr cfg.width true) = rest.take cfg.width.words := by
  have hle : b.rdPtrIncr cfg.width true ≤ _ := BufOut.rdPtrIncr_le hb
  obtain ⟨t, ht⟩ := hq
  have hqt : queue.take (b.rdPtrIncr cfg.width true) = (queue ++ t).take (b.rdPtrIncr cfg.width true) :=
    (List.take_append_of_le_length hle).symm
  rw [hqt, ht, h.left_eq, h.rdPtrIncr_eq hv, List.take_append_of_le_length (Nat.min_le_left ..),
    Nat.min_comm, ← List.take_eq_take_min]

theorem leaving (h : Front cfg ps b toL15 done forwarded left before after cur l rest)
    (hv : b.validOut cfg.width = true) :
    Leaving cfg ps (b.step cfg.width p m d true) (cfg.routed (l.getD 0 0)) (done ++ [rest.take cfg.width.words])
      (forwarded ++ if cfg.routed (l.getD 0 0) then [rest.take cfg.width.words] else [])
      (left.drop (b.rdPtrIncr cfg.width true)) := by
  have hpos := Noc3.Width.words_pos cfg.width
  have hlen := h.length_rest
  have hne : rest ≠ [] := List.length_pos_iff.mp (by omega)
  rw [h.rdPtrIncr_eq hv, h.left_eq, h.done_eq, h.forwarded_eq, List.append_assoc, List.append_assoc]
  by_cases hlt : b.ahead < cfg.width.words
  · -- the last flit of the packet
    have hle : rest.length ≤ cfg.width.words := by omega
    have hl : pieces cfg.width.words l = cur ++ [rest] := by rw [h.pieces_eq, Chunks.pieces_short hne hle]
    have hfwd : (if cfg.routed (l.getD 0 0) then cur else []) ++ (if cfg.routed (l.getD 0 0) then [rest] else []) =
        (cfg.toL15 [l]).flatMap (pieces cfg.width.words) := by
      rw [toL15_singleton]
      split
      · rw [List.flatMap_singleton, hl]
      · rfl
    rw [List.take_of_length_le hle, hfwd, ← hl, Nat.min_eq_left hle, List.drop_left', ← List.flatMap_append, ← toL15_append]
    · have hdone : before.flatMap (pieces cfg.width.words) ++ pieces cfg.width.words l =
          (before ++ [l]).flatMap (pieces cfg.width.words) := by simp
      rw [hdone]
      apply Leaving.header
      · rw [h.packets, List.append_assoc, List.singleton_append]
      · simp [BufOut.step, hv, hlt]
    · rfl
  · have hle : cfg.width.words ≤ rest.length := by omega
    have hfwd : (if cfg.routed (l.getD 0 0) then cur else []) ++
        (if cfg.routed (l.getD 0 0) then [rest.take cfg.width.words] else []) =
        if cfg.routed (l.getD 0 0) then cur ++ [rest.take cfg.width.words] else [] := by
      split <;> simp
    rw [hfwd, Nat.min_eq_right hle, List.drop_append_of_le_length hle]
    apply Leaving.body h.packets
    · simp [BufOut.step, hv, hlt]
    · have := congrArg List.length h.words_eq
      rw [List.length_append] at this
      rw [List.length_drop]
      omega
    · rw [h.pieces_eq, Chunks.pieces_long hpos hle, List.append_assoc, List.singleton_append]
    · have hge : cfg.width.words ≤ b.ahead := by omega
      simp only [List.length_drop, BufOut.step, hv, Bool.and_self, decide_eq_true hge, if_true]
      omega
    · rfl

end Front

namespace Link

/-- The output side: the pieces that left, those of them for the L1.5, and the words in the buffer. -/
structure Sending (cfg : Cfg) (ps : List (List Word)) (s : Link) (done forwarded : List (List Word))
    (left queue : List Word) : Prop where
  leaving : Leaving cfg ps s.bufOut s.toL15 done forwarded left
  sent : s.sent = done.map (pad cfg.width.words 0)
  written : s.written = done.flatten ++ queue
  holds : s.bufOut.buf.Holds bufOutSize queue
  queue_prefix : queue <+: left

variable {cfg : Cfg} {ps qs done forwarded : List (List Word)} {s : Link} {i : Input} {left queue : List Word}

theorem Init.sending (h : Init s) (cfg : Cfg) (ps : List (List Word)) : s.Sending cfg ps [] [] ps.flatten [] := by
  cases h
  refine ⟨?_, rfl, rfl, .empty (by decide) _, List.nil_prefix⟩
  exact .header (List.nil_append ps).symm rfl

theorem Sending.queue_step (hs : s.Sending cfg ps done forwarded left queue) :
    (s.step cfg i).bufOut.buf.Holds bufOutSize
      (queue.drop (s.bufOut.rdPtrIncr cfg.width i.readyOut) ++ s.accepted cfg i) :=
  BufOut.step_holds hs.holds (BufOut.rdPtrIncr_le hs.holds)

/-- The words left follow those waiting, also behind the words of this step. -/
theorem prefix_of_writes {done : List (List Word)} {left queue : List Word}
    (hl : done.flatten ++ left = ps.flatten) (hw : s.written = done.flatten ++ queue) (h : Writes cfg ps s i) :
    queue ++ s.accepted cfg i <+: left := by
  have h : (s.step cfg i).written <+: ps.flatten := h
  simp only [step, hw] at h
  rw [← hl, List.append_assoc] at h
  exact (List.prefix_append_right_inj _).mp h

theorem Sending.step_idle (hs : s.Sending cfg ps done forwarded left queue) (hw : Writes cfg ps s i)
    (hf : s.fire cfg i = false) :
    (s.step cfg i).Sending cfg ps done forwarded left (queue ++ s.accepted cfg i) := by
  have hincr : s.bufOut.rdPtrIncr cfg.width i.readyOut = 0 := by
    rw [BufOut.rdPtrIncr, if_neg]
    rw [← Link.fire, hf]
    exact Bool.false_ne_true
  have hfire : (s.bufOut.validOut cfg.width && i.readyOut) = false := hf
  refine ⟨?_, ?_, ?_, ?_, prefix_of_writes hs.leaving.done_left hs.written hw⟩
  · have hroute : (s.step cfg i).toL15 = s.toL15 := by simp [step, hf]
    rw [hroute]
    exact hs.leaving.congr (by simp [step, BufOut.step, hfire]) (by simp [step, BufOut.step, hfire])
  · simp [step, hf, hs.sent]
  · simp only [step, hs.written, List.append_assoc]
  · have := hs.queue_step (i := i)
    rwa [hincr, List.drop_zero] at this

theorem Sending.step_fire (hs : s.Sending cfg ps done forwarded left queue) (hw : Writes cfg ps s i)
    (hps : ∀ l ∈ ps, Packet l) (hf : s.fire cfg i = true) :
    ∃ piece left' queue', s.flit cfg i = pad cfg.width.words 0 piece ∧
      (s.step cfg i).Sending cfg ps (done ++ [piece])
        (forwarded ++ if s.routedNow cfg i then [piece] else []) left' queue' := by
  obtain ⟨hv, hr⟩ : s.bufOut.validOut cfg.width = true ∧ i.readyOut = true := by simpa [fire] using hf
  have hne : queue ≠ [] := by
    rintro rfl
    have := (BufOut.validOut_iff hs.holds).mp hv
    have hpos := Noc3.Width.words_pos cfg.width
    split at this
    · exact absurd this (Nat.not_lt_zero _)
    · rw [List.length_nil] at this
      omega
  obtain ⟨before, after, cur, l, rest, hfr⟩ := hs.leaving.front hs.holds hs.queue_prefix (fun _ => hne) hps
  have htake := hfr.take_eq hv hs.holds hs.queue_prefix
  have hflit : s.flit cfg i = pad cfg.width.words 0 (rest.take cfg.width.words) := by
    rw [flit, hr, BufOut.dataOut_eq hs.holds hv, htake]
  have hroute : s.routedNow cfg i = cfg.routed (l.getD 0 0) := by
    rw [routedNow]
    cases ht : s.bufOut.flitType with
    | header =>
        have hpos := Noc3.Width.words_pos cfg.width
        have hword : (s.flit cfg i).word 0 = l.getD 0 0 := by
          rw [hflit, Flit.word, Chunks.getD_pad hpos, hfr.header ht, List.getD_eq_getElem?_getD,
            List.getD_eq_getElem?_getD, List.getElem?_take_of_lt hpos]
        exact congrArg cfg.routed hword
    | body => exact (hfr.body ht).1
  refine ⟨rest.take cfg.width.words, left.drop (s.bufOut.rdPtrIncr cfg.width true), _, hflit, ?_, ?_, ?_, hs.queue_step, ?_⟩
  · have := hfr.leaving hv (p := cfg.parallelSrams) (m := i.mode) (d := i.data)
    rw [hroute]
    have ht : (s.step cfg i).toL15 = cfg.routed (l.getD 0 0) := by simp [step, hf, hroute]
    rw [ht]
    simpa only [step, hr] using this
  · simp [step, hf, hs.sent, hflit]
  · rw [hr]
    simp only [step, hs.written, List.flatten_append, List.flatten_singleton, ← htake, List.append_assoc]
    rw [← List.append_assoc (queue.take _), List.take_append_drop]
  · have hpre := prefix_of_writes hs.leaving.done_left hs.written hw
    have hle : s.bufOut.rdPtrIncr cfg.width true ≤ _ := BufOut.rdPtrIncr_le hs.holds
    rw [hr, ← List.drop_append_of_le_length hle]
    exact hpre.drop _

/-- When no flit is offered and the words written are whole packets, all of them have left. -/
theorem Sending.drained (hs : s.Sending cfg ps done forwarded left queue) (hps : ∀ l ∈ ps, Packet l) (hqs : qs <+: ps)
    (hw : s.written = qs.flatten) (hv : s.bufOut.validOut cfg.width = false) :
    done = qs.flatMap (pieces cfg.width.words) ∧ forwarded = (cfg.toL15 qs).flatMap (pieces cfg.width.words) := by
  have hpos := Noc3.Width.words_pos cfg.width
  have hnil : ∀ l ∈ ps, l ≠ [] := fun l hl => (hps l hl).ne_nil
  by_cases hidle : s.bufOut.flitType = .header ∧ queue = []
  · obtain ⟨ht, rfl⟩ := hidle
    have hwr := hs.written
    cases hs.leaving with
    | @header before after hcut =>
        rw [hw, List.append_nil, Chunks.flatten_flatMap_pieces hpos] at hwr
        rw [prefix_eq_of_flatten hqs ⟨after, hcut.symm⟩ hnil hwr]
        exact ⟨rfl, rfl⟩
    | body _ hb =>
        rw [ht] at hb
        cases hb
  · exfalso
    have hne : s.bufOut.flitType = .header → queue ≠ [] := fun ht hq => hidle ⟨ht, hq⟩
    obtain ⟨before, after, cur, l, rest, hfr⟩ := hs.leaving.front hs.holds hs.queue_prefix hne hps
    have hlen := hfr.length_rest
    have hwords : qs.flatten.length = before.flatten.length + (cur.flatten.length + queue.length) := by
      rw [← hw, hs.written, hfr.done_eq, List.flatten_append, Chunks.flatten_flatMap_pieces hpos]
      simp only [List.length_append, Nat.add_assoc]
    have hl := congrArg List.length hfr.words_eq
    rw [List.length_append] at hl
    -- words of the packet were written, so it is one of `qs`
    have hmore : 0 < cur.flatten.length + queue.length := by
      cases ht : s.bufOut.flitType with
      | header =>
          have := List.length_pos_iff.mpr (hne ht)
          omega
      | body =>
          have := (hfr.body ht).2
          omega
    have hbefore : before ++ [l] <+: qs := by
      have hl : before ++ [l] <+: ps := ⟨after, by rw [hfr.packets, List.append_assoc, List.singleton_append]⟩
      rcases List.prefix_or_prefix_of_prefix hl hqs with h | h
      · exact h
      · rcases List.prefix_concat_iff.mp h with h | ⟨t, ht⟩
        · exact h ▸ List.prefix_rfl
        · have := congrArg (fun l => l.flatten.length) ht
          simp only [List.flatten_append, List.length_append] at this
          omega
    have hrest : rest.length ≤ queue.length := by
      obtain ⟨t, ht⟩ := hbefore
      rw [← ht] at hwords
      simp only [List.flatten_append, List.flatten_singleton, List.length_append] at hwords
      omega
    have := (BufOut.validOut_iff hs.holds).not.mp (by rw [hv]; exact Bool.false_ne_true)
    split at this <;> omega

end Link

end OpenPiton.Noc2
