import OpenPiton.Noc1.Link

namespace OpenPiton.Noc1

open L15 (Noc1Reqtype Word)

/-- The flits of a message from `flitState` on, each with its tail bit. -/
inductive Sends (w : Width) (m : Message) : Nat → List (Flit × Bool) → Prop
  | last {k : Nat} : m.sendDone w k = true → Sends w m k [(m.flit w k, true)]
  | more {k : Nat} {u : List (Flit × Bool)} : m.sendDone w k = false → flitStateIncr w k ≠ 0 →
      Sends w m (flitStateIncr w k) u → Sends w m k ((m.flit w k, false) :: u)

namespace Message

/-- What the receiver reads off the first word agrees with the message. -/
structure Framed (m : Message) : Prop where
  length_mem : m.length = 1 ∨ m.length = 2 ∨ m.length = 3 ∨ m.length = 4
  fieldLength_eq : fieldLength m.header1 = BitVec.ofNat 8 m.length
  interrupt_iff : fieldType m.header1 = msgTypeInterruptFwd ↔ m.length = 1

/-- The messages the two ends agree on at a width. -/
def Agreed (w : Width) (m : Message) : Prop :=
  match w with
  | .w64 | .w128 => True
  | .w256 => m.length ≠ 1 ∧ m.length ≠ 4
  | .w512 => m.length ≠ 1

/-- The whole message as flits. -/
def flits (w : Width) (m : Message) : List (Flit × Bool) :=
  match w with
  | .w64 =>
      match m.length with
      | 1 => [([m.header1], false), ([m.header2], true)]
      | 2 => [([m.header1], false), ([m.header2], false), ([m.header3], true)]
      | 3 => [([m.header1], false), ([m.header2], false), ([m.header3], false), ([m.data1], true)]
      | _ =>
          [([m.header1], false), ([m.header2], false), ([m.header3], false), ([m.data1], false),
            ([m.data2], true)]
  | .w128 =>
      match m.length with
      | 1 => [([m.header1, m.header2], true)]
      | 4 =>
          [([m.header1, m.header2], false), ([m.header3, m.data1], false),
            ([m.header3, m.data2], true)]
      | _ => [([m.header1, m.header2], false), ([m.header3, m.data1], true)]
  | .w256 =>
      match m.length with
      | 4 =>
          [([m.header1, m.header2, m.header3, m.data1], false),
            ([m.header1, m.header2, m.header3, m.data2], true)]
      | _ => [([m.header1, m.header2, m.header3, m.data1], true)]
  | .w512 => [([m.header1, m.header2, m.header3, m.data1, m.data2], true)]

theorem sends_flits {w : Width} {m : Message} (hm : m.Framed) : Sends w m 0 (m.flits w) := by
  obtain ⟨h1, h2, h3, d1, d2, len⟩ := m
  have hlen := hm.length_mem
  simp only at hlen
  cases w
  case w64 =>
    rcases hlen with rfl | rfl | rfl | rfl
    · exact .more rfl (by decide) (.last rfl)
    · exact .more rfl (by decide) (.more rfl (by decide) (.last rfl))
    · exact .more rfl (by decide) (.more rfl (by decide) (.more rfl (by decide) (.last rfl)))
    · exact .more rfl (by decide)
        (.more rfl (by decide) (.more rfl (by decide) (.more rfl (by decide) (.last rfl))))
  case w128 =>
    rcases hlen with rfl | rfl | rfl | rfl
    · exact .last rfl
    · exact .more rfl (by decide) (.last rfl)
    · exact .more rfl (by decide) (.last rfl)
    · exact .more rfl (by decide) (.more rfl (by decide) (.last rfl))
  case w256 =>
    rcases hlen with rfl | rfl | rfl | rfl
    · exact .last rfl
    · exact .last rfl
    · exact .last rfl
    · exact .more rfl (by decide) (.last rfl)
  case w512 => exact .last rfl

end Message

/-- The receiver is between two messages. -/
structure Control.Boundary (w : Width) (c : Control) : Prop where
  msgState : c.msgState = 0
  msgIntState : c.msgIntState = 0
  msgDataState : w = .w256 → c.msgDataState ≠ 2

/-- The counter of the data buffer follows its write pointer, also after a cycle on which the flit
finds a buffer full. -/
structure Control.Counts (w : Width) (c : Control) (f : Flit) : Prop where
  dataIncr_eq : c.dataIncr w f = (c.dataIn w f).length
  stalled_eq : (c.stalled f).dataIncr w f = (c.dataIn w f).length

/-- The rest of a message, flit by flit as the receiver takes it, with the words it writes to the
two buffers and the number of writes. A flit that starts or continues an interrupt is written
without being taken. -/
inductive Receives (w : Width) : Control → List (Flit × Bool) → List Word → List Word → Nat → Prop
  | done {c : Control} : c.Boundary w → Receives w c [] [] [] 0
  | hold {c : Control} {p : Flit × Bool} {ps : List (Flit × Bool)} {h d : List Word} {k : Nat} :
      c.Counts w p.1 → c.intStall p.1 = true → Receives w (c.next w p.1) (p :: ps) h d k →
      Receives w c (p :: ps) (c.headerIn w p.1 ++ h) (c.dataIn w p.1 ++ d) (k + 1)
  | take {c : Control} {p : Flit × Bool} {ps : List (Flit × Bool)} {h d : List Word} {k : Nat} :
      c.Counts w p.1 → c.intStall p.1 = false → p.2 = ps.isEmpty → Receives w (c.next w p.1) ps h d k →
      Receives w c (p :: ps) (c.headerIn w p.1 ++ h) (c.dataIn w p.1 ++ d) (k + 1)

namespace Control

variable {w : Width} {c : Control} {f : Flit}

theorem stalled_of_msgState (h : c.msgState ≠ 0) : c.stalled f = c := by
  cases c
  simp_all [stalled, dataStateNext]

@[simp] theorem dataStateNext_stalled : (c.stalled f).dataStateNext f = c.dataStateNext f := by
  by_cases h : c.msgState = 0 <;> simp [stalled, dataStateNext, h]

@[simp] theorem stalled_stalled : (c.stalled f).stalled f = c.stalled f := by
  have h := c.dataStateNext_stalled (f := f)
  simp only [stalled] at h ⊢
  rw [h]

theorem headerIn_stalled : (c.stalled f).headerIn w f = c.headerIn w f := rfl

theorem dataMux_stalled : (c.stalled f).dataMux w f = c.dataMux w f := by
  by_cases h : c.msgState = 0
  · have hm : (c.stalled f).msgState = 0 := h
    cases w <;> simp [dataMux, headerMux, h, hm]
  · rw [stalled_of_msgState h]

theorem dataIn_stalled : (c.stalled f).dataIn w f = c.dataIn w f := by
  simp only [dataIn, dataMux_stalled, dataStateNext_stalled]

theorem next_stalled : (c.stalled f).next w f = c.next w f := by
  by_cases h : c.msgState = 0
  · have hm : (c.stalled f).msgState = 0 := h
    have hi : (c.stalled f).msgIntState = c.msgIntState := rfl
    simp only [next, dataStateNext_stalled, Control.mk.injEq, true_and]
    cases w <;> simp [stateNext, intStateNext, isInterrupt, h, hm, hi]
  · rw [stalled_of_msgState h]

theorem Counts.stalled (h : c.Counts w f) : (c.stalled f).Counts w f where
  dataIncr_eq := by rw [h.stalled_eq, dataIn_stalled]
  stalled_eq := by rw [stalled_stalled, h.stalled_eq, dataIn_stalled]

theorem counts_of (hds : w = .w256 → c.msgDataState ≠ 2 ∧ c.dataStateNext f ≠ 2) : c.Counts w f := by
  cases w
  case w64 => constructor <;> simp only [dataIncr, dataIn, dataMux_stalled] <;> split <;> rfl
  case w128 => constructor <;> simp only [dataIncr, dataIn, dataMux_stalled] <;> split <;> rfl
  case w256 =>
    obtain ⟨h, hn⟩ := hds rfl
    have hs : (c.stalled f).msgDataState ≠ 2 := hn
    constructor
    · simp only [dataIncr, dataIn, h, if_false]
      split <;> rfl
    · simp only [dataIncr, dataIn, dataMux_stalled, hs, if_false]
      split <;> rfl
  case w512 =>
    constructor <;> simp only [dataIncr, dataIn, dataMux_stalled, dataStateNext_stalled] <;> grind

end Control

theorem Receives.stalled {w : Width} {c : Control} {p : Flit × Bool} {ps : List (Flit × Bool)}
    {h d : List Word} {k : Nat} (hr : Receives w c (p :: ps) h d k) :
    Receives w (c.stalled p.1) (p :: ps) h d k := by
  cases hr with
  | hold hc hs hn =>
    rw [← Control.headerIn_stalled, ← Control.dataIn_stalled]
    exact .hold hc.stalled hs (by rwa [Control.next_stalled])
  | take hc hs hp hn =>
    rw [← Control.headerIn_stalled, ← Control.dataIn_stalled]
    exact .take hc.stalled hs hp (by rwa [Control.next_stalled])

/-- What one write of the flit `f` does. -/
structure Control.Writes (w : Width) (c : Control) (f : Flit) (c' : Control) (h d : List Word) : Prop where
  next_eq : c.next w f = c'
  headerIn_eq : c.headerIn w f = h
  dataIn_eq : c.dataIn w f = d
  counts : w = .w256 → c.msgDataState ≠ 2 ∧ c.dataStateNext f ≠ 2

section

variable {w : Width} {c c' : Control} {f : Flit} {ps : List (Flit × Bool)} {h h' d d' : List Word} {k : Nat}

theorem Receives.hold_of {last : Bool} (hw : c.Writes w f c' h d) (hs : c.intStall f = true)
    (hn : Receives w c' ((f, last) :: ps) h' d' k) :
    Receives w c ((f, last) :: ps) (h ++ h') (d ++ d') (k + 1) := by
  obtain ⟨rfl, rfl, rfl, hc⟩ := hw
  exact .hold (Control.counts_of hc) hs hn

theorem Receives.take_of (hw : c.Writes w f c' h d) (hs : c.intStall f = false)
    (hn : Receives w c' ps h' d' k) :
    Receives w c ((f, ps.isEmpty) :: ps) (h ++ h') (d ++ d') (k + 1) := by
  obtain ⟨rfl, rfl, rfl, hc⟩ := hw
  exact .take (Control.counts_of hc) hs rfl hn

end

namespace Control

variable {f : Flit} {n s : Nat} {x y z u v : Word}

theorem intStall_false (hx : fieldType x ≠ msgTypeInterruptFwd) :
    (Control.mk 0 n 0).intStall (x :: f) = false := by
  simp [intStall, isInterrupt, Flit.word, hx]

theorem intStall_later (hs : s ≠ 0) : (Control.mk s n 0).intStall f = false := by
  simp [intStall, isInterrupt, hs]

theorem writes_first_w64 (hx : fieldType x ≠ msgTypeInterruptFwd) :
    Writes .w64 ⟨0, n, 0⟩ [x] ⟨1, dataStateOf x, 0⟩ [x] [] := by
  constructor <;> simp [next, stateNext, dataStateNext, intStateNext, isInterrupt, headerIn, dataIn, dataMux,
    headerMux, Flit.word, hx]

theorem writes_w64 (hs : s = 1 ∨ s = 2 ∨ s = 3 ∨ s = 4) :
    Writes .w64 ⟨s, n, 0⟩ [x]
      ⟨if s = 2 ∧ n = 0 ∨ s = 3 ∧ n = 1 ∨ s = 4 then 0 else s + 1, n, 0⟩
      (if s ≤ 2 then [x] else []) (if s ≤ 2 then [] else [x]) := by
  rcases hs with rfl | rfl | rfl | rfl <;> constructor <;>
    simp [next, stateNext, dataStateNext, intStateNext, isInterrupt, headerIn, dataIn, dataMux, headerMux,
      Flit.word]

theorem writes_first_w128 (hx : fieldType x ≠ msgTypeInterruptFwd) :
    Writes .w128 ⟨0, n, 0⟩ [x, y] ⟨2, dataStateOf x, 0⟩ [x, y] [] := by
  constructor <;> simp [next, stateNext, dataStateNext, intStateNext, isInterrupt, headerIn, dataIn, dataMux,
    headerMux, Flit.word, hx]

theorem writes_w128 (hs : s = 2 ∨ s = 4) :
    Writes .w128 ⟨s, n, 0⟩ [x, y] ⟨if s = 2 ∧ n ≠ 0 ∧ n ≠ 1 then 4 else 0, n, 0⟩
      (if s = 2 then [x] else []) (if s = 2 ∧ n = 0 then [] else [y]) := by
  rcases hs with rfl | rfl <;> constructor <;>
    simp [next, stateNext, dataStateNext, intStateNext, isInterrupt, headerIn, dataIn, dataMux, headerMux,
      Flit.word]
  grind

theorem writes_w256 (hn : dataStateOf x ≠ 2) (hds : n ≠ 2) :
    Writes .w256 ⟨0, n, 0⟩ [x, y, z, u] ⟨0, dataStateOf x, 0⟩ [x, y, z]
      (if dataStateOf x = 0 then [] else [u]) := by
  constructor <;> simp [next, stateNext, dataStateNext, intStateNext, headerIn, dataIn, dataMux, headerMux,
    Flit.word, hn, hds]

theorem writes_w512 :
    Writes .w512 ⟨0, n, 0⟩ [x, y, z, u, v] ⟨0, dataStateOf x, 0⟩ [x, y, z]
      (if dataStateOf x = 0 then [] else if dataStateOf x = 2 then [u, v] else [u]) := by
  constructor <;> simp [next, stateNext, dataStateNext, intStateNext, headerIn, dataIn, dataMux, headerMux,
    Flit.word]

theorem writes_interrupt_w64 (hx : fieldType x = msgTypeInterruptFwd) :
    Writes .w64 ⟨0, n, 0⟩ [x] ⟨1, 1, 1⟩ [x] [] ∧ Writes .w64 ⟨1, 1, 1⟩ [x] ⟨2, 1, 2⟩ [x] [] ∧
      Writes .w64 ⟨2, 1, 2⟩ [x] ⟨3, 1, 0⟩ [x] [] := by
  refine ⟨?_, ?_, ?_⟩ <;> constructor <;>
    simp [next, stateNext, dataStateNext, dataStateOf, intStateNext, isInterrupt, headerIn, dataIn, dataMux,
      headerMux, Flit.word, hx]

theorem writes_interrupt_w128 (hx : fieldType x = msgTypeInterruptFwd) :
    Writes .w128 ⟨0, n, 0⟩ [x, y] ⟨2, 1, 2⟩ [x, y] [] ∧
      Writes .w128 ⟨2, 1, 2⟩ [x, y] ⟨0, 1, 0⟩ [x] [y] := by
  refine ⟨?_, ?_⟩ <;> constructor <;>
    simp [next, stateNext, dataStateNext, dataStateOf, intStateNext, isInterrupt, headerIn, dataIn, dataMux,
      headerMux, Flit.word, hx]

end Control

namespace Message

variable {m : Message} {w : Width} {c : Control}

theorem Framed.fieldType_ne (hm : m.Framed) (h : m.length ≠ 1) : fieldType m.header1 ≠ msgTypeInterruptFwd :=
  fun he => h (hm.interrupt_iff.mp he)

theorem Framed.dataStateOf_eq (hm : m.Framed) (h : m.length ≠ 1) : dataStateOf m.header1 = m.length - 2 := by
  rw [dataStateOf, if_neg (hm.fieldType_ne h), hm.fieldLength_eq]
  rcases hm.length_mem with hl | hl | hl | hl
  · exact absurd hl h
  all_goals rw [hl]; rfl

theorem receives_w64 {n : Nat} (hm : m.Framed) :
    ∃ k ≤ m.length + 3, Receives .w64 ⟨0, n, 0⟩ (m.flits .w64) (m.headerWords .w64) m.dataWords k := by
  obtain ⟨h1, h2, h3, d1, d2, len⟩ := m
  have boundary (n : Nat) : (Control.mk 0 n 0).Boundary .w64 := ⟨rfl, rfl, by simp⟩
  by_cases h : len = 1
  · subst h
    have hx : fieldType h1 = msgTypeInterruptFwd := hm.interrupt_iff.mpr rfl
    obtain ⟨ha, hb, hc⟩ := Control.writes_interrupt_w64 (n := n) hx
    have hd := Control.writes_w64 (s := 3) (n := 1) (x := h2) (by decide)
    have hr := Receives.hold_of ha (by simp [Control.intStall, Control.isInterrupt, Flit.word, hx])
      (.hold_of hb (by simp [Control.intStall]) (.take_of hc (by simp [Control.intStall, Control.isInterrupt])
        (.take_of hd (Control.intStall_later (by decide)) (.done (boundary 1)))))
    exact ⟨4, by simp, by simpa [flits, headerWords, dataWords] using hr⟩
  · have hx := hm.fieldType_ne h
    have hfirst := Control.writes_first_w64 (n := n) hx
    rw [hm.dataStateOf_eq h] at hfirst
    have hlater (s n : Nat) (x : Word) (hs : s = 1 ∨ s = 2 ∨ s = 3 ∨ s = 4) :=
      Control.writes_w64 (n := n) (x := x) hs
    have hstall (s n : Nat) (f : Flit) (hs : s ≠ 0) : (Control.mk s n 0).intStall f = false :=
      Control.intStall_later hs
    rcases hm.length_mem with hl | hl | hl | hl <;> simp only at hl <;> subst hl
    · exact absurd rfl h
    · have hr := Receives.take_of hfirst (Control.intStall_false hx)
        (.take_of (hlater 1 0 h2 (by decide)) (hstall _ _ _ (by decide))
          (.take_of (hlater 2 0 h3 (by decide)) (hstall _ _ _ (by decide)) (.done (boundary 0))))
      exact ⟨3, by simp, by simpa [flits, headerWords, dataWords] using hr⟩
    · have hr := Receives.take_of hfirst (Control.intStall_false hx)
        (.take_of (hlater 1 1 h2 (by decide)) (hstall _ _ _ (by decide))
          (.take_of (hlater 2 1 h3 (by decide)) (hstall _ _ _ (by decide))
            (.take_of (hlater 3 1 d1 (by decide)) (hstall _ _ _ (by decide)) (.done (boundary 1)))))
      exact ⟨4, by simp, by simpa [flits, headerWords, dataWords] using hr⟩
    · have hr := Receives.take_of hfirst (Control.intStall_false hx)
        (.take_of (hlater 1 2 h2 (by decide)) (hstall _ _ _ (by decide))
          (.take_of (hlater 2 2 h3 (by decide)) (hstall _ _ _ (by decide))
            (.take_of (hlater 3 2 d1 (by decide)) (hstall _ _ _ (by decide))
              (.take_of (hlater 4 2 d2 (by decide)) (hstall _ _ _ (by decide)) (.done (boundary 2))))))
      exact ⟨5, by simp, by simpa [flits, headerWords, dataWords] using hr⟩

theorem receives_w128 {n : Nat} (hm : m.Framed) :
    ∃ k ≤ m.length + 3, Receives .w128 ⟨0, n, 0⟩ (m.flits .w128) (m.headerWords .w128) m.dataWords k := by
  obtain ⟨h1, h2, h3, d1, d2, len⟩ := m
  have boundary (n : Nat) : (Control.mk 0 n 0).Boundary .w128 := ⟨rfl, rfl, by simp⟩
  by_cases h : len = 1
  · subst h
    have hx : fieldType h1 = msgTypeInterruptFwd := hm.interrupt_iff.mpr rfl
    obtain ⟨ha, hb⟩ := Control.writes_interrupt_w128 (n := n) (y := h2) hx
    have hr := Receives.hold_of ha (by simp [Control.intStall, Control.isInterrupt, Flit.word, hx])
      (.take_of hb (by simp [Control.intStall, Control.isInterrupt]) (.done (boundary 1)))
    exact ⟨2, by simp, by simpa [flits, headerWords, dataWords] using hr⟩
  · have hx := hm.fieldType_ne h
    have hfirst := Control.writes_first_w128 (n := n) (y := h2) hx
    rw [hm.dataStateOf_eq h] at hfirst
    have hlater (s n : Nat) (y : Word) (hs : s = 2 ∨ s = 4) :=
      Control.writes_w128 (n := n) (x := h3) (y := y) hs
    have hstall (s n : Nat) (f : Flit) (hs : s ≠ 0) : (Control.mk s n 0).intStall f = false :=
      Control.intStall_later hs
    rcases hm.length_mem with hl | hl | hl | hl <;> simp only at hl <;> subst hl
    · exact absurd rfl h
    · have hr := Receives.take_of hfirst (Control.intStall_false hx)
        (.take_of (hlater 2 0 d1 (by decide)) (hstall _ _ _ (by decide)) (.done (boundary 0)))
      exact ⟨2, by simp, by simpa [flits, headerWords, dataWords] using hr⟩
    · have hr := Receives.take_of hfirst (Control.intStall_false hx)
        (.take_of (hlater 2 1 d1 (by decide)) (hstall _ _ _ (by decide)) (.done (boundary 1)))
      exact ⟨2, by simp, by simpa [flits, headerWords, dataWords] using hr⟩
    · have hr := Receives.take_of hfirst (Control.intStall_false hx)
        (.take_of (hlater 2 2 d1 (by decide)) (hstall _ _ _ (by decide))
          (.take_of (hlater 4 2 d2 (by decide)) (hstall _ _ _ (by decide)) (.done (boundary 2))))
      exact ⟨3, by simp, by simpa [flits, headerWords, dataWords] using hr⟩

theorem receives_w256 {n : Nat} (hm : m.Framed) (ha : m.Agreed .w256) (hds : n ≠ 2) :
    ∃ k ≤ m.length + 3, Receives .w256 ⟨0, n, 0⟩ (m.flits .w256) (m.headerWords .w256) m.dataWords k := by
  obtain ⟨h1, h2, h3, d1, d2, len⟩ := m
  have h : len ≠ 1 := ha.1
  have hstate := hm.dataStateOf_eq h
  simp only at hstate
  have hne : dataStateOf h1 ≠ 2 := by
    have hlen := hm.length_mem
    have : len ≠ 4 := ha.2
    simp only at hlen
    omega
  have hw := Control.writes_w256 (x := h1) (y := h2) (z := h3) (u := d1) hne hds
  have hr := Receives.take_of hw (Control.intStall_false (hm.fieldType_ne h))
    (.done ⟨rfl, rfl, fun _ => hne⟩)
  rw [hstate] at hr
  rcases hm.length_mem with hl | hl | hl | hl <;> simp only at hl <;> subst hl
  · exact absurd rfl h
  · exact ⟨1, by simp, by simpa [flits, headerWords, dataWords] using hr⟩
  · exact ⟨1, by simp, by simpa [flits, headerWords, dataWords] using hr⟩
  · exact absurd rfl ha.2

theorem receives_w512 {n : Nat} (hm : m.Framed) (ha : m.Agreed .w512) :
    ∃ k ≤ m.length + 3, Receives .w512 ⟨0, n, 0⟩ (m.flits .w512) (m.headerWords .w512) m.dataWords k := by
  obtain ⟨h1, h2, h3, d1, d2, len⟩ := m
  have h : len ≠ 1 := ha
  have hw := Control.writes_w512 (n := n) (x := h1) (y := h2) (z := h3) (u := d1) (v := d2)
  have hr := Receives.take_of hw (Control.intStall_false (hm.fieldType_ne h)) (.done ⟨rfl, rfl, by simp⟩)
  rw [hm.dataStateOf_eq h] at hr
  rcases hm.length_mem with hl | hl | hl | hl <;> simp only at hl <;> subst hl
  · exact absurd rfl h
  all_goals exact ⟨1, by simp, by simpa [flits, headerWords, dataWords] using hr⟩

/-- A receiver between two messages writes the words of the next, and of no other. -/
theorem receives_flits (hc : c.Boundary w) (hm : m.Framed) (ha : m.Agreed w) :
    ∃ k ≤ m.length + 3, Receives w c (m.flits w) (m.headerWords w) m.dataWords k := by
  obtain ⟨s, n, i⟩ := c
  obtain ⟨rfl, rfl, hds⟩ := hc
  cases w
  case w64 => exact receives_w64 hm
  case w128 => exact receives_w128 hm
  case w256 => exact receives_w256 hm ha (hds rfl)
  case w512 => exact receives_w512 hm ha

end Message

theorem msgLength_mem {r : Noc1Reqtype} (h : r ≠ .none) :
    msgLength r = 1 ∨ msgLength r = 2 ∨ msgLength r = 3 ∨ msgLength r = 4 := by
  cases r <;> simp_all [msgLength]

theorem msgLength_eq_one {r : Noc1Reqtype} : msgLength r = 1 ↔ r = .interruptFwd := by
  cases r <;> simp [msgLength]

theorem msgLength_eq_four {r : Noc1Reqtype} : msgLength r = 4 ↔ r = .casRequest := by
  cases r <;> simp [msgLength]

theorem Req.msgType_eq (r : Req) : r.msgType = msgTypeInterruptFwd ↔ r.reqtype = .interruptFwd := by
  obtain ⟨reqtype, prefetch, nonCacheable⟩ := r
  cases reqtype
  case amoRequest op => cases op <;> simp [Req.msgType, aluMsgType, msgTypeInterruptFwd]
  case rvcmoRequest op => cases op <;> simp [Req.msgType, cmoMsgType, msgTypeInterruptFwd]
  all_goals simp only [Req.msgType, msgTypeInterruptFwd] <;> cases prefetch <;> cases nonCacheable <;> simp

/-- The encoder writes the type and the length where the receiver reads them. -/
theorem Req.message_framed (t : Tile) (a : BitVec 40) {r : Req} (h : r.reqtype ≠ .none) :
    (r.message t a).Framed where
  length_mem := msgLength_mem h
  fieldLength_eq := fieldLength_append ..
  interrupt_iff := by
    rw [Req.message, fieldType_append, r.msgType_eq]
    exact msgLength_eq_one.symm

end OpenPiton.Noc1
