import OpenPiton.Noc2.Packing

namespace OpenPiton.Noc2

open L15 (Word)
open Noc1 (Flit fieldLength)
open Noc3 (Width LineSize)
open Chunks (pieces pad)

/-- The flit that begins with word `k * w.words` of a packet. -/
def flitAt (w : Width) (l : List Word) (k : Nat) : Flit := pad w.words 0 ((l.drop (k * w.words)).take w.words)

section

variable {w : Width} {l : List Word} {k j : Nat}

theorem getElem?_flits (hk : k < (flits w l).length) : (flits w l)[k]? = some (flitAt w l k) := by
  rw [flits, List.length_map] at hk
  rw [flits, List.getElem?_map, Chunks.getElem?_pieces hk]
  rfl

theorem length_flits : (flits w l).length = (l.length + w.words - 1) / w.words := by
  rw [flits, List.length_map, Chunks.length_pieces]

/-- A flit is one of the packet's when words of the packet are in it. -/
theorem lt_length_flits : k < (flits w l).length ↔ k * w.words < l.length := by
  have hpos := Noc3.Width.words_pos w
  rw [length_flits, Nat.lt_iff_add_one_le, Nat.le_div_iff_mul_le hpos, Nat.succ_mul]
  omega

theorem word_flitAt (hj : j < w.words) : (flitAt w l k).word j = l.getD (k * w.words + j) 0 := by
  rw [flitAt, Flit.word, Chunks.getD_pad hj, List.getD_eq_getElem?_getD, List.getElem?_take_of_lt hj,
    List.getElem?_drop, List.getD_eq_getElem?_getD]

end

namespace Snb

variable {cfg : Cfg} {n : Snb} {l : List Word}

/-- The buffer has the flits of a packet up to `k`. -/
def Has (w : Width) (n : Snb) (l : List Word) (k : Nat) : Prop := ∀ j < k, n.buffer j = flitAt w l j

theorem Has.word {k j : Nat} (h : n.Has cfg.width l k) (hj : j < k * cfg.width.words) :
    (n.buffer (j / cfg.width.words)).word (j % cfg.width.words) = l.getD j 0 := by
  have hpos := Noc3.Width.words_pos cfg.width
  rw [h _ (Nat.div_lt_of_lt_mul (by rwa [Nat.mul_comm])), word_flitAt (Nat.mod_lt _ hpos), Nat.div_add_mod']

theorem Has.reads (h : n.Has cfg.width l (flits cfg.width l).length) (hl : Packet l)
    (hle : l.length ≤ maxFlitNumber cfg.lineSize) : Reads l (n.msg cfg.width cfg.lineSize) := by
  have hlen : l.length ≤ (flits cfg.width l).length * cfg.width.words := by
    by_contra hlt
    exact absurd (lt_length_flits.mpr (Nat.lt_of_not_le hlt)) (Nat.lt_irrefl _)
  have hget {j : Nat} (hj : j < l.length) : (n.msg cfg.width cfg.lineSize).getD j 0 = l.getD j 0 := by
    rw [msg, List.getD_eq_getElem?_getD, List.getElem?_map, List.getElem?_range (by omega), Option.map_some,
      Option.getD_some, h.word (by omega)]
  constructor
  · apply List.ext_getElem
    · simp [msg, hle]
    · intro j h₁ h₂
      have := hget h₂
      rw [List.getElem_take]
      rwa [List.getD_eq_getElem _ _ (by rw [List.length_take] at h₁; omega), List.getD_eq_getElem _ _ h₂] at this
  · intro j hj
    have hhead : (fieldLength ((n.msg cfg.width cfg.lineSize).getD 0 0)).toNat + 1 = l.length := by
      rw [hget (by omega)]
      exact hl.symm
    simp only [decoderData]
    split
    · obtain rfl : j = 0 := by omega
      exact hget hj
    · split
      · split
        · obtain rfl : j = 0 := by omega
          exact hget hj
        · obtain rfl : j = 1 := by omega
          exact hget hj
      · exact hget hj

/-- What the buffer has made of the flits taken: the packets acknowledged, and those of the next. -/
inductive Taken (cfg : Cfg) (qs : List (List Word)) (n : Snb) (delivered : List (List Word)) : List Flit → Prop
  | idle {before after : List (List Word)} : qs = before ++ after → n.state = .idle → n.index = 0 →
      n.lenCaptured = 0 → List.Forall₂ Reads before delivered →
      Taken cfg qs n delivered (before.flatMap (flits cfg.width))
  | receiving {before after : List (List Word)} {l : List Word} : qs = before ++ l :: after → n.state = .receiving →
      0 < n.index → n.index * cfg.width.words < l.length → n.lenCaptured = n.index * cfg.width.words →
      n.Has cfg.width l n.index → List.Forall₂ Reads before delivered →
      Taken cfg qs n delivered (before.flatMap (flits cfg.width) ++ (flits cfg.width l).take n.index)
  | waitingAck {before after : List (List Word)} {l : List Word} : qs = before ++ l :: after →
      n.state = .waitingAck → n.Has cfg.width l (flits cfg.width l).length → List.Forall₂ Reads before delivered →
      Taken cfg qs n delivered ((before ++ [l]).flatMap (flits cfg.width))
  | waitingAckRst {before after : List (List Word)} : qs = before ++ after → n.state = .waitingAckRst →
      n.index = 0 → n.lenCaptured = 0 → List.Forall₂ Reads before delivered →
      Taken cfg qs n delivered (before.flatMap (flits cfg.width))

/-- What `msg_ack` delivers. -/
def acked (cfg : Cfg) (n : Snb) (msgAck : Bool) : List (List Word) :=
  if n.msgVal && msgAck then [n.msg cfg.width cfg.lineSize] else []

namespace Taken

variable {qs delivered : List (List Word)} {taken : List Flit} {f : Flit} {msgAck : Bool}

theorem step_none (h : Taken cfg qs n delivered taken) (hgood : ∀ l ∈ qs, Packet l ∧ Fits cfg l) :
    Taken cfg qs (n.step cfg.width cfg.lineSize none msgAck) (delivered ++ n.acked cfg msgAck) taken := by
  cases h with
  | idle hqs hs hi hc hall =>
      have hd : n.acked cfg msgAck = [] := by simp [acked, msgVal, hs]
      simp only [hd, List.append_nil, step, hs]
      exact .idle hqs hs hi hc hall
  | receiving hqs hs hi hlt hc hhas hall =>
      have hd : n.acked cfg msgAck = [] := by simp [acked, msgVal, hs]
      simp only [hd, List.append_nil, step, hs]
      exact .receiving hqs hs hi hlt hc hhas hall
  | @waitingAck before after l hqs hs hhas hall =>
      cases msgAck with
      | false =>
          have hd : n.acked cfg false = [] := by simp [acked]
          simp only [hd, List.append_nil, step, hs]
          exact .waitingAck hqs hs hhas hall
      | true =>
          obtain ⟨hl, hf⟩ := hgood l (by rw [hqs]; simp)
          have hd : n.acked cfg true = [n.msg cfg.width cfg.lineSize] := by simp [acked, msgVal, hs]
          simp only [hd, step, hs, if_true]
          have hqs' : qs = (before ++ [l]) ++ after := by rw [hqs, List.append_assoc, List.singleton_append]
          exact .waitingAckRst hqs' rfl rfl rfl (List.rel_append hall (.cons (hhas.reads hl hf.2) .nil))
  | waitingAckRst hqs hs hi hc hall =>
      have hd : n.acked cfg msgAck = [] := by simp [acked, msgVal, hs]
      simp only [hd, List.append_nil, step, hs]
      cases msgAck with
      | false => exact .idle hqs rfl hi hc hall
      | true => exact .waitingAckRst hqs hs hi hc hall

theorem next_eq {before after : List (List Word)} {k : Nat} (hqs : qs = before ++ l :: after)
    (hk : k < (flits cfg.width l).length)
    (hf : before.flatMap (flits cfg.width) ++ (flits cfg.width l).take k ++ [f] <+: qs.flatMap (flits cfg.width)) :
    f = flitAt cfg.width l k := by
  rw [hqs, List.flatMap_append, List.append_assoc, List.prefix_append_right_inj, List.flatMap_cons] at hf
  have hlen : ((flits cfg.width l).take k).length = k := by
    rw [List.length_take]
    omega
  obtain ⟨t, ht⟩ := hf
  have hget := congrArg (fun fs : List Flit => fs[k]?) ht
  simp only [List.append_assoc] at hget
  rw [List.getElem?_append_right hlen.le, hlen, Nat.sub_self, List.getElem?_append_left hk, getElem?_flits hk] at hget
  simpa using hget

theorem next_of_idle {before after : List (List Word)} (hqs : qs = before ++ after) (hgood : ∀ l ∈ qs, Packet l ∧ Fits cfg l)
    (hf : before.flatMap (flits cfg.width) ++ [f] <+: qs.flatMap (flits cfg.width)) :
    ∃ l later, after = l :: later ∧ Packet l ∧ Fits cfg l ∧ f = flitAt cfg.width l 0 ∧ 0 < (flits cfg.width l).length := by
  cases after with
  | nil => exact absurd hf.length_le (by simp [hqs])
  | cons l later =>
      obtain ⟨hl, hfit⟩ := hgood l (by rw [hqs]; simp)
      have hpos := List.length_pos_iff.mpr (flits_pos cfg.width hl.ne_nil)
      exact ⟨l, later, rfl, hl, hfit, next_eq hqs hpos (by rwa [List.take_zero, List.append_nil]), hpos⟩

theorem write_has {k : Nat} (h : n.Has cfg.width l k) (hk : k < buffDepth cfg.width cfg.lineSize) :
    ({ n with buffer := n.write cfg.width cfg.lineSize k (flitAt cfg.width l k) } : Snb).Has cfg.width l (k + 1) := by
  intro j hj
  simp only [write, if_pos hk]
  rcases Nat.lt_succ_iff_lt_or_eq.mp hj with hlt | rfl
  · rw [Function.update_of_ne hlt.ne]
    exact h j hlt
  · exact Function.update_self ..

theorem lt_buffDepth {k : Nat} (hfit : Fits cfg l) (hk : k * cfg.width.words < l.length) :
    k < buffDepth cfg.width cfg.lineSize := by
  have hpos := Noc3.Width.words_pos cfg.width
  have hlt : k * cfg.width.words < maxFlitNumber cfg.lineSize := hk.trans_le hfit.2
  have hdiv := Nat.div_add_mod (maxFlitNumber cfg.lineSize) cfg.width.words
  have hmod := Nat.mod_lt (maxFlitNumber cfg.lineSize) hpos
  rw [buffDepth]
  by_contra hge
  have hle : maxFlitNumber cfg.lineSize / cfg.width.words ≤ k := by omega
  have := Nat.mul_le_mul_left cfg.width.words hle
  rw [Nat.mul_comm k] at hlt
  split at hge
  · have := Nat.mul_le_mul_left cfg.width.words (show maxFlitNumber cfg.lineSize / cfg.width.words + 1 ≤ k by omega)
    rw [Nat.mul_succ] at this
    omega
  · omega

theorem counted_eq {k : Nat} (hfit : Fits cfg l) (hk : (k + 1) * cfg.width.words < l.length) {m : Snb}
    (hi : m.index = k) (hc : m.lenCaptured = k * cfg.width.words) :
    m.counted cfg.width cfg.lineSize =
      { m with state := .receiving, index := k + 1, lenCaptured := (k + 1) * cfg.width.words } := by
  have hdepth := lt_buffDepth hfit hk
  have hindex : k + 1 < 2 ^ indexWidth cfg.width cfg.lineSize := by
    have : k + 1 ≤ buffDepth cfg.width cfg.lineSize - 1 := by omega
    exact this.trans_lt Nat.lt_log2_self
  have hlen : l.length ≤ 9 := by
    refine hfit.2.trans ?_
    cases cfg.lineSize <;> decide
  rw [counted, hi, hc, Nat.mod_eq_of_lt hindex, ← Nat.add_one_mul, Nat.mod_eq_of_lt (by omega)]

theorem step_some (h : Taken cfg qs n delivered taken) (hgood : ∀ l ∈ qs, Packet l ∧ Fits cfg l)
    (hrdy : n.nocInRdy = true) (hf : taken ++ [f] <+: qs.flatMap (flits cfg.width)) :
    Taken cfg qs (n.step cfg.width cfg.lineSize (some f) msgAck) (delivered ++ n.acked cfg msgAck) (taken ++ [f]) := by
  have hpos := Noc3.Width.words_pos cfg.width
  cases h with
  | @idle before after hqs hs hi hc hall =>
      obtain ⟨l, later, rfl, hl, hfit, rfl, hfirst⟩ := next_of_idle hqs hgood hf
      have hd : n.acked cfg msgAck = [] := by simp [acked, msgVal, hs]
      have hhas : ({ n with buffer := n.write cfg.width cfg.lineSize 0 (flitAt cfg.width l 0) } : Snb).Has cfg.width l 1 :=
        write_has (fun j hj => absurd hj (Nat.not_lt_zero j)) (lt_buffDepth hfit (by simpa using lt_length_flits.mp hfirst))
      have hword : ((fieldLength ((flitAt cfg.width l 0).word 0)).toNat) + 1 = l.length := by
        rw [word_flitAt hpos, Nat.zero_mul, Nat.zero_add]
        exact hl.symm
      have hone : [flitAt cfg.width l 0] = (flits cfg.width l).take 1 := by
        rw [List.take_one, List.head?_eq_getElem?, getElem?_flits hfirst]
        rfl
      simp only [hd, List.append_nil, step, hs]
      split
      case isTrue hlt =>
        have hcount : (flits cfg.width l).length = 1 := by
          rw [length_flits]
          exact Nat.div_eq_of_lt_le (by omega) (by omega)
        have hflit : before.flatMap (flits cfg.width) ++ [flitAt cfg.width l 0] =
            (before ++ [l]).flatMap (flits cfg.width) := by
          rw [hone, List.take_of_length_le hcount.le, List.flatMap_append, List.flatMap_singleton]
        rw [hflit]
        apply Taken.waitingAck hqs rfl
        · rw [hcount]
          exact hhas
        · exact hall
      case isFalse hge =>
        have hmore : (0 + 1) * cfg.width.words < l.length := by omega
        rw [counted_eq hfit hmore, hone]
        · exact .receiving hqs rfl Nat.one_pos hmore rfl hhas hall
        · exact hi
        · rw [hc, Nat.zero_mul]
  | @receiving before after l hqs hs hi hlt hc hhas hall =>
      obtain ⟨hl, hfit⟩ := hgood l (by rw [hqs]; simp)
      have hd : n.acked cfg msgAck = [] := by simp [acked, msgVal, hs]
      have hk := lt_length_flits.mpr hlt
      -- the flit is the next one of the packet
      obtain rfl := next_eq hqs hk hf
      have hhas' := write_has hhas (lt_buffDepth hfit hlt)
      have hword : ((fieldLength ((n.buffer 0).word 0)).toNat) + 1 = l.length := by
        rw [hhas 0 hi, word_flitAt hpos, Nat.zero_mul, Nat.zero_add]
        exact hl.symm
      have hsucc : before.flatMap (flits cfg.width) ++ (flits cfg.width l).take n.index ++ [flitAt cfg.width l n.index] =
          before.flatMap (flits cfg.width) ++ (flits cfg.width l).take (n.index + 1) := by
        rw [List.append_assoc, List.take_add_one, getElem?_flits hk]
        rfl
      simp only [hd, List.append_nil, step, hs]
      rw [hsucc]
      split
      case isTrue hle =>
        have hcount : (flits cfg.width l).length = n.index + 1 := by
          have hlast : ¬ n.index + 1 < (flits cfg.width l).length := by
            rw [lt_length_flits, Nat.add_one_mul]
            omega
          omega
        have hflit : before.flatMap (flits cfg.width) ++ flits cfg.width l = (before ++ [l]).flatMap (flits cfg.width) := by
          rw [List.flatMap_append, List.flatMap_singleton]
        rw [List.take_of_length_le hcount.le, hflit]
        apply Taken.waitingAck hqs rfl
        · rw [hcount]
          exact hhas'
        · exact hall
      case isFalse hgt =>
        -- the data fill the flits, so a whole flit follows
        have hmore : (n.index + 1) * cfg.width.words < l.length := by
          have hge := Nat.mul_le_mul_right cfg.width.words hi
          rcases hfit.1 with hle | ⟨q, hq⟩
          · omega
          · have hlt : cfg.width.words * n.index < cfg.width.words * q := by
              rw [← hq, Nat.mul_comm, ← hc]
              omega
            have hle := Nat.mul_le_mul_left cfg.width.words (Nat.lt_of_mul_lt_mul_left hlt)
            rw [← hq, Nat.mul_comm] at hle
            change (n.index + 1) * cfg.width.words ≤ l.length - 1 at hle
            omega
        rw [counted_eq hfit hmore]
        · exact .receiving hqs rfl (Nat.succ_pos _) hmore rfl hhas' hall
        · rfl
        · exact hc
  | waitingAck _ hs => simp [nocInRdy, hs] at hrdy
  | waitingAckRst _ hs => simp [nocInRdy, hs] at hrdy

end Taken

end Snb

namespace Link

open Snb (Taken)

variable {cfg : Cfg} {ps qs : List (List Word)} {s : Link} {i : Input}

/-- Both sides and the flits under way. -/
def Flowing (cfg : Cfg) (ps : List (List Word)) (s : Link) : Prop :=
  ∃ done forwarded left queue taken, s.Sending cfg ps done forwarded left queue ∧
    Taken cfg (cfg.toL15 ps) s.snb s.delivered taken ∧ taken ++ s.link = forwarded.map (pad cfg.width.words 0)

theorem Init.flowing (h : Init s) (cfg : Cfg) (ps : List (List Word)) : s.Flowing cfg ps := by
  refine ⟨[], [], ps.flatten, [], [], h.sending cfg ps, ?_, ?_⟩
  · cases h
    exact .idle (List.nil_append _).symm rfl rfl rfl .nil
  · cases h
    rfl

/-- A step of the output side. -/
theorem Sending.step {done forwarded : List (List Word)} {left queue : List Word}
    (hs : s.Sending cfg ps done forwarded left queue) (hw : Writes cfg ps s i) (hps : ∀ l ∈ ps, Packet l) :
    ∃ done' forwarded' left' queue', (s.step cfg i).Sending cfg ps done' forwarded' left' queue' ∧
      forwarded'.map (pad cfg.width.words 0) = forwarded.map (pad cfg.width.words 0) ++
        (if s.fire cfg i && s.routedNow cfg i then [s.flit cfg i] else []) := by
  cases hf : s.fire cfg i with
  | false => exact ⟨_, _, _, _, hs.step_idle hw hf, by simp⟩
  | true =>
      obtain ⟨piece, left', queue', hflit, hs'⟩ := hs.step_fire hw hps hf
      refine ⟨_, _, _, _, hs', ?_⟩
      cases s.routedNow cfg i <;> simp [hflit]

theorem Flowing.step (h : s.Flowing cfg ps) (hw : Writes cfg ps s i) (hps : ∀ l ∈ ps, Packet l)
    (hfit : ∀ l ∈ cfg.toL15 ps, Fits cfg l) : (s.step cfg i).Flowing cfg ps := by
  obtain ⟨done, forwarded, left, queue, taken, hs, ht, hlink⟩ := h
  obtain ⟨done', forwarded', left', queue', hs', hfwd⟩ := hs.step hw hps
  have hgood : ∀ l ∈ cfg.toL15 ps, Packet l ∧ Fits cfg l :=
    fun l hl => ⟨hps l (List.mem_of_mem_filter hl), hfit l hl⟩
  have hpre : forwarded.map (pad cfg.width.words 0) <+: (cfg.toL15 ps).flatMap (flits cfg.width) := by
    rw [flatMap_flits]
    exact hs.leaving.forwarded_prefix.map _
  cases ho : s.offered i with
  | none =>
      refine ⟨done', forwarded', left', queue', taken, hs', ?_, ?_⟩
      · have hsnb : (s.step cfg i).snb = s.snb.step cfg.width cfg.lineSize none i.msgAck := by simp [Link.step, ho]
        rw [hsnb]
        exact ht.step_none hgood
      · rw [hfwd, ← hlink]
        simp [Link.step, ho]
  | some f =>
      obtain ⟨hrdy, rest, hrest⟩ : s.snb.nocInRdy = true ∧ ∃ rest, s.link = f :: rest := by
        simp only [offered] at ho
        split at ho
        case isTrue hd => exact ⟨(Bool.and_eq_true _ _ ▸ hd).2, List.head?_eq_some_iff.mp ho⟩
        case isFalse => cases ho
      refine ⟨done', forwarded', left', queue', taken ++ [f], hs', ?_, ?_⟩
      · have hsnb : (s.step cfg i).snb = s.snb.step cfg.width cfg.lineSize (some f) i.msgAck := by simp [Link.step, ho]
        rw [hsnb]
        apply ht.step_some hgood hrdy
        refine List.IsPrefix.trans ⟨rest, ?_⟩ hpre
        rw [← hlink, hrest, List.append_assoc, List.singleton_append]
      · rw [hfwd, ← hlink]
        simp [Link.step, ho, hrest]

theorem Flowing.roundTrip (h : s.Flowing cfg ps) (hps : ∀ l ∈ ps, Packet l) : RoundTrip cfg ps s := by
  obtain ⟨done, forwarded, left, queue, taken, hs, ht, hlink⟩ := h
  refine ⟨⟨done, queue, hs.leaving.done_prefix, hs.sent, hs.written, hs.holds⟩, ?_, ?_, ?_⟩
  · intro qs hqs hw hv
    rw [hs.sent, (hs.drained hps hqs hw hv).1, flatMap_flits]
  · cases ht with
    | idle hqs _ _ _ hall => exact ⟨_, ⟨_, hqs.symm⟩, hall⟩
    | receiving hqs _ _ _ _ _ hall => exact ⟨_, ⟨_, hqs.symm⟩, hall⟩
    | waitingAck hqs _ _ hall => exact ⟨_, ⟨_, hqs.symm⟩, hall⟩
    | waitingAckRst hqs _ _ _ hall => exact ⟨_, ⟨_, hqs.symm⟩, hall⟩
  · intro qs hqs hw hv hempty hidle
    rw [hempty, List.append_nil, (hs.drained hps hqs hw hv).2, ← flatMap_flits] at hlink
    cases ht with
    | @idle before after hcut _ _ _ hall =>
        have hflits : ∀ f ∈ (cfg.toL15 ps).map (flits cfg.width), f ≠ [] := by
          intro f hf
          obtain ⟨l, hl, rfl⟩ := List.mem_map.mp hf
          exact flits_pos _ (hps l (List.mem_of_mem_filter hl)).ne_nil
        have hbefore : before <+: cfg.toL15 ps := ⟨after, hcut.symm⟩
        have htoL15 : cfg.toL15 qs <+: cfg.toL15 ps := hqs.filter _
        have hmap := prefix_eq_of_flatten (hbefore.map (flits cfg.width)) (htoL15.map (flits cfg.width)) hflits
          (by simpa only [List.flatMap_def] using hlink)
        have hlen : before.length = (cfg.toL15 qs).length := by simpa using congrArg List.length hmap
        rw [← (List.prefix_of_prefix_length_le hbefore htoL15 hlen.le).eq_of_length hlen]
        exact hall
    | receiving _ hs => simp [hidle] at hs
    | waitingAck _ hs => simp [hidle] at hs
    | waitingAckRst _ hs => simp [hidle] at hs

theorem packing_round_trip (hps : ∀ l ∈ ps, Packet l) (hfit : ∀ l ∈ cfg.toL15 ps, Fits cfg l)
    (h : Machine.Reaches Init (step cfg) (Writes cfg ps) s) : RoundTrip cfg ps s := by
  have hflow : s.Flowing cfg ps :=
    h.invariant (P := Flowing cfg ps) (fun _ h => h.flowing cfg ps) fun _ _ hf hw => hf.step hw hps hfit
  exact hflow.roundTrip hps

/-- Flits of 128 bits; every packet goes to the L1.5. -/
def series128 : Cfg := ⟨.w128, false, .b16, fun _ => true⟩

def idleInput : Input := {}

def headerWord (length : Nat) : Word := BitVec.ofNat 64 (length * 2 ^ 22)

/-- A line of two words and an invalidation. -/
def linePackets : List (List Word) := [[headerWord 2, 7, 9], [headerWord 0]]

def lineInputs : List Input :=
  [{ mode := some .m1H2D, data := [headerWord 2, 0, 0, 7, 9] }, { mode := some .m1H0D, data := [headerWord 0] }] ++
    List.replicate 2 idleInput ++ [{ msgAck := true }] ++ List.replicate 3 idleInput ++ [{ msgAck := true }]

theorem round_trip_line : (Machine.run (step series128) {} lineInputs).delivered.map (List.take 1) =
    [[headerWord 2], [headerWord 0]] ∧ RoundTrip series128 linePackets (Machine.run (step series128) {} lineInputs) :=
  ⟨by decide +kernel, packing_round_trip (by decide) (by decide +kernel)
    ((Machine.Reaches.start (show Init {} from rfl)).run (by decide +kernel))⟩

/-- A store that the memory controller would take, and an invalidation behind it. -/
def storePackets : List (List Word) := [[headerWord 3, 5, 6, 7], [headerWord 0]]

def storeInputs : List Input :=
  [{ mode := some .m3H1D, data := [headerWord 3, 5, 6, 7] }, { mode := some .m1H0D, data := [headerWord 0] }] ++
    List.replicate 6 idleInput ++ [{ msgAck := true }] ++ List.replicate 2 idleInput

/-- The flit of the second packet is taken for one of the first. -/
theorem carried_over : ¬ ∀ cfg ps s, (∀ l ∈ ps, Packet l) → Machine.Reaches Init (step cfg) (Writes cfg ps) s →
    RoundTrip cfg ps s := by
  intro h
  have hr := h series128 storePackets (Machine.run (step series128) {} storeInputs) (by decide)
    ((Machine.Reaches.start (show Init {} from rfl)).run (by decide +kernel))
  have hall := hr.delivered_all storePackets List.prefix_rfl (by decide +kernel) (by decide +kernel)
    (by decide +kernel) (by decide +kernel)
  have hlen := hall.length_eq
  revert hlen
  decide +kernel

end Link

end OpenPiton.Noc2
