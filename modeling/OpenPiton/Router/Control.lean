import OpenPiton.Router.Route

namespace OpenPiton.Router

/-- The registers of `dynamic_input_control`. -/
structure InputControl where
  countF : Nat := 0
  headerLastF : Bool := true
  thanksAllF : Bool := false
  countZeroF : Bool := true
  countOneF : Bool := false
  tailLastF : Bool := false

namespace InputControl

variable (s : InputControl) (validIn : Bool) (length : Nat)

def headerTemp : Bool :=
  match s.headerLastF, s.countZeroF, s.thanksAllF with
  | false, false, false => false
  | false, false, true => false
  | false, true, false => false
  | false, true, true => true
  | true, false, false => true
  | true, false, true => false
  | true, true, false => true
  | true, true, true => true

def header : Bool := validIn && s.headerTemp

def countMinusOne : Nat := (s.countF + (2 ^ PAYLOAD_LEN - 1)) % 2 ^ PAYLOAD_LEN

def countTemp : Nat :=
  if s.header validIn then length
  else if s.thanksAllF then s.countMinusOne
  else s.countF

def tail : Bool :=
  (s.header validIn && length == 0) || (!s.thanksAllF && s.tailLastF) || (s.thanksAllF && s.countOneF)

def step (thanksAll : Bool) : InputControl where
  countF := s.countTemp validIn length
  headerLastF := s.headerTemp
  thanksAllF := thanksAll
  countZeroF := s.countTemp validIn length == 0
  countOneF := s.countTemp validIn length == 1
  tailLastF := s.tail validIn length

/-- After a flit left, a header is next when none was counted; otherwise nothing changes. -/
theorem headerTemp_step (thanksAll : Bool) :
    (s.step validIn length thanksAll).headerTemp =
      if thanksAll then s.countTemp validIn length == 0 else s.headerTemp := by
  have htable : ∀ s' : InputControl, s'.headerTemp = if s'.thanksAllF then s'.countZeroF else s'.headerLastF := by
    intro s'
    unfold headerTemp
    cases s'.headerLastF <;> cases s'.countZeroF <;> cases s'.thanksAllF <;> rfl
  exact htable _

/-- The registers follow the packet in front: `left` flits of it have not come by, and `zero` says
that a header without further flits is the next. -/
structure Tracks (s : InputControl) (left : Nat) (zero : Bool) : Prop where
  count_lt : s.countF < 2 ^ PAYLOAD_LEN
  zero_eq : s.countZeroF = (s.countF == 0)
  one_eq : s.countOneF = (s.countF == 1)
  idle : left = 0 → s.headerTemp = true ∧ (s.thanksAllF = true → s.countOneF = false) ∧
    (s.thanksAllF = false → s.tailLastF = true → zero = true)
  busy : ∀ m, left = m + 1 → s.headerTemp = false ∧
    (if s.thanksAllF then s.countMinusOne else s.countF) = m ∧
    (if s.thanksAllF then s.countOneF else s.tailLastF) = (m == 0)

namespace Tracks

variable {s : InputControl} {left length : Nat} {zero zero' validIn thanksAll : Bool}

theorem reset : ({} : InputControl).Tracks 0 false where
  count_lt := by decide
  zero_eq := rfl
  one_eq := rfl
  idle := fun _ => by decide
  busy := fun m hm => by cases hm

theorem headerTemp_eq (h : s.Tracks left zero) : s.headerTemp = (left == 0) := by
  cases left with
  | zero => exact (h.idle rfl).1
  | succ m => exact (h.busy m rfl).1

theorem tail_eq (h : s.Tracks left (validIn && length == 0)) :
    s.tail validIn length = if left = 0 then (validIn && length == 0) else left == 1 := by
  cases left with
  | zero =>
      obtain ⟨hh, hone, hlast⟩ := h.idle rfl
      simp only [tail, header, hh, Bool.and_true, if_true]
      cases ht : s.thanksAllF with
      | true => simp [hone ht]
      | false =>
          cases hl : s.tailLastF with
          | false => simp
          | true => simp [hlast ht hl]
  | succ m =>
      obtain ⟨hh, -, hlast⟩ := h.busy m rfl
      simp only [tail, header, hh]
      cases ht : s.thanksAllF <;> simp_all

theorem countTemp_eq (h : s.Tracks left zero) (validIn : Bool) (length : Nat) :
    (left = 0 → validIn = true → s.countTemp validIn length = length) ∧
      ∀ m, left = m + 1 → s.countTemp validIn length = m := by
  refine ⟨fun hl hv => ?_, fun m hm => ?_⟩
  · simp [countTemp, header, hv, (h.idle hl).1]
  · obtain ⟨hh, hc, -⟩ := h.busy m hm
    simp [countTemp, header, hh, hc]

theorem countTemp_lt (h : s.Tracks left zero) (validIn : Bool) (hlen : length < 2 ^ PAYLOAD_LEN) :
    s.countTemp validIn length < 2 ^ PAYLOAD_LEN := by
  have := h.count_lt
  unfold countTemp countMinusOne
  split
  · exact hlen
  split
  · exact Nat.mod_lt _ (by decide)
  · exact this

theorem countMinusOne_of_pos (hpos : 0 < s.countF) (hlt : s.countF < 2 ^ PAYLOAD_LEN) :
    s.countMinusOne = s.countF - 1 := by
  rw [countMinusOne, show s.countF + (2 ^ PAYLOAD_LEN - 1) = s.countF - 1 + 2 ^ PAYLOAD_LEN by
    simp only [PAYLOAD_LEN]; omega, Nat.add_mod_right, Nat.mod_eq_of_lt (by omega)]

/-- A flit that leaves is the header of the next packet or one of those left; a header that stays
in front is there in the next cycle. -/
theorem step (h : s.Tracks left (validIn && length == 0)) (hlen : length < 2 ^ PAYLOAD_LEN)
    (hthanks : thanksAll = true → validIn = true)
    (hstay : thanksAll = false → (validIn && length == 0) = true → zero' = true) :
    (s.step validIn length thanksAll).Tracks
      (if thanksAll then (if left = 0 then length else left - 1) else left) zero' := by
  obtain ⟨hcount, hcount'⟩ := h.countTemp_eq validIn length
  have hlt := h.countTemp_lt validIn hlen
  have hlast := h.headerTemp_eq
  refine ⟨hlt, rfl, rfl, ?_, ?_⟩
  · intro hl
    cases thanksAll with
    | true =>
        have hc : s.countTemp validIn length = 0 := by
          simp only [if_true] at hl
          by_cases hz : left = 0
          · rw [hcount hz (hthanks rfl)]
            simpa [hz] using hl
          · rw [hcount' 0 (by rw [if_neg hz] at hl; omega)]
        refine ⟨?_, by simp [InputControl.step, hc], by simp [InputControl.step]⟩
        rw [headerTemp_step, hc]
        rfl
    | false =>
        simp only [Bool.false_eq_true, if_false] at hl
        refine ⟨?_, by simp [InputControl.step], fun _ htail => ?_⟩
        · rw [headerTemp_step, hlast, hl]
          rfl
        · simp only [InputControl.step, h.tail_eq, hl, if_true] at htail
          exact hstay rfl htail
  · intro m hm
    cases thanksAll with
    | true =>
        have hc : s.countTemp validIn length = m + 1 := by
          simp only [if_true] at hm
          by_cases hz : left = 0
          · rw [hcount hz (hthanks rfl)]
            simpa [hz] using hm
          · rw [hcount' (m + 1) (by rw [if_neg hz] at hm; omega)]
        refine ⟨?_, ?_, ?_⟩
        · rw [headerTemp_step, hc]
          rfl
        · have hpos : (s.step validIn length true).countF = m + 1 := hc
          simp only [InputControl.step, if_true]
          exact (countMinusOne_of_pos (s := s.step validIn length true) (by omega) hlt).trans (by omega)
        · simp [InputControl.step, hc]
    | false =>
        simp only [Bool.false_eq_true, if_false] at hm
        refine ⟨?_, ?_, ?_⟩
        · rw [headerTemp_step, hlast, hm]
          rfl
        · simpa [InputControl.step] using hcount' m hm
        · simp only [InputControl.step, h.tail_eq, hm, Bool.false_eq_true, if_false]
          simp

end Tracks

end InputControl

/-- The inputs of an output, in the order of its priority encoder: `ROUTE_A` is the default. -/
inductive Route
  | a | b | c | d | x
  deriving DecidableEq

/-- The registers of `dynamic_output_control`. -/
structure OutputControl where
  currentRouteF : Route := .a
  plannedF : Bool := false

namespace OutputControl

variable (s : OutputControl) (routeReq tail : Route → Bool) (validOutTemp defaultReady spaceAvail : Bool)

def plannedOrDefault : Bool := s.plannedF || defaultReady

def validOut : Bool := validOutTemp && s.plannedOrDefault defaultReady && spaceAvail

/-- The rotating priority encoder. -/
def newRoute : Route :=
  match s.currentRouteF with
  | .a => if routeReq .b then .b else if routeReq .c then .c else if routeReq .d then .d else if routeReq .x then .x else .a
  | .b => if routeReq .c then .c else if routeReq .d then .d else if routeReq .x then .x else if routeReq .a then .a else .a
  | .c => if routeReq .d then .d else if routeReq .x then .x else if routeReq .a then .a else if routeReq .b then .b else .a
  | .d => if routeReq .x then .x else if routeReq .a then .a else if routeReq .b then .b else if routeReq .c then .c else .a
  | .x => if routeReq .a then .a else if routeReq .b then .b else if routeReq .c then .c else if routeReq .d then .d else .a

/-- `route_req_*_mask`: all but the planned route. -/
def routeReqMask (r : Route) : Bool := !(s.plannedF && s.currentRouteF == r)

def routeReqAllOrWithPlanned : Bool :=
  (routeReq .a && s.routeReqMask .a) || (routeReq .b && s.routeReqMask .b) || (routeReq .c && s.routeReqMask .c) ||
    (routeReq .d && s.routeReqMask .d) || (routeReq .x && s.routeReqMask .x)

def routeReqAllButDefault : Bool := routeReq .b || routeReq .c || routeReq .d || routeReq .x

/-- `new_route_needed`, by `default_ready`, `valid_out_internal`, `tail_current_route` and `planned_f`. -/
def newRouteNeeded : Bool → Bool → Bool → Bool → Bool
  | false, false, false, false => true
  | false, false, false, true => false
  | false, false, true, false => true
  | false, false, true, true => false
  | false, true, false, false => false
  | false, true, false, true => false
  | false, true, true, false => true
  | false, true, true, true => true
  | true, false, false, false => true
  | true, false, false, true => false
  | true, false, true, false => true
  | true, false, true, true => false
  | true, true, false, false => false
  | true, true, false, true => false
  | true, true, true, false => true
  | true, true, true, true => true

/-- `planned_temp`; in front of the bits of `new_route_needed` stands `route_req_all_or_with_planned`. -/
def plannedTemp (routeReqAllButDefault : Bool) : Bool → Bool → Bool → Bool → Bool → Bool
  | false, false, false, false, false => false
  | false, false, false, false, true => true
  | false, false, false, true, false => false
  | false, false, false, true, true => true
  | false, false, true, false, false => false
  | false, false, true, false, true => true
  | false, false, true, true, false => false
  | false, false, true, true, true => false
  | false, true, false, false, false => false
  | false, true, false, false, true => true
  | false, true, false, true, false => false
  | false, true, false, true, true => true
  | false, true, true, false, false => false
  | false, true, true, false, true => true
  | false, true, true, true, false => false
  | false, true, true, true, true => false
  | true, true, true, true, false => routeReqAllButDefault
  | true, _, _, _, _ => true

def step : OutputControl where
  currentRouteF :=
    if newRouteNeeded defaultReady (s.validOut validOutTemp defaultReady spaceAvail) (tail s.currentRouteF) s.plannedF then
      s.newRoute routeReq
    else s.currentRouteF
  plannedF :=
    plannedTemp (routeReqAllButDefault routeReq) (s.routeReqAllOrWithPlanned routeReq) defaultReady
      (s.validOut validOutTemp defaultReady spaceAvail) (tail s.currentRouteF) s.plannedF

theorem newRouteNeeded_eq (d v t p : Bool) : newRouteNeeded d v t p = if v then t else !p := by
  cases d <;> cases v <;> cases t <;> cases p <;> rfl

theorem plannedTemp_eq (b o d v t p : Bool) :
    plannedTemp b o d v t p = if o then (if d && v && t && !p then b else true) else p && !(v && t) := by
  cases o <;> cases d <;> cases v <;> cases t <;> cases p <;> rfl

variable {s routeReq tail validOutTemp defaultReady spaceAvail}

/-- The encoder finds another input that requests the output, or goes back to the default. -/
theorem newRoute_spec (s : OutputControl) (routeReq : Route → Bool) :
    (routeReq (s.newRoute routeReq) = true ∧ s.newRoute routeReq ≠ s.currentRouteF) ∨
      s.newRoute routeReq = .a ∧ ∀ r, r ≠ s.currentRouteF → routeReq r = false := by
  unfold newRoute
  cases hc : s.currentRouteF <;> dsimp only <;> repeat' split
  all_goals first
    | exact .inl ⟨by assumption, by decide⟩
    | refine .inr ⟨rfl, fun r hr => ?_⟩
      cases r <;> simp_all

theorem routeReqAllOrWithPlanned_iff :
    s.routeReqAllOrWithPlanned routeReq = true ↔ ∃ r, routeReq r = true ∧ s.routeReqMask r = true := by
  simp only [routeReqAllOrWithPlanned, Bool.or_eq_true, Bool.and_eq_true]
  constructor
  · rintro ((((h | h) | h) | h) | h) <;> exact ⟨_, h⟩
  · rintro ⟨r, h⟩
    cases r <;> simp [h.1, h.2]

theorem routeReqAllButDefault_iff :
    routeReqAllButDefault routeReq = true ↔ ∃ r, r ≠ .a ∧ routeReq r = true := by
  simp only [routeReqAllButDefault, Bool.or_eq_true]
  constructor
  · rintro (((h | h) | h) | h) <;> exact ⟨_, by decide, h⟩
  · rintro ⟨r, hr, h⟩
    cases r <;> simp_all

theorem defaultReady_of_validOut (hv : s.validOut validOutTemp defaultReady spaceAvail = true)
    (hp : s.plannedF = false) : defaultReady = true := by
  simp only [validOut, plannedOrDefault, hp, Bool.false_or, Bool.and_eq_true] at hv
  exact hv.1.2

variable (routeReq tail) in
/-- A planned route waits for its flits, and a packet that goes out keeps its route up to the tail. -/
theorem step_kept (hd : defaultReady = routeReq .a)
    (h : s.plannedF = true ∧ s.validOut validOutTemp defaultReady spaceAvail = false ∨
      s.validOut validOutTemp defaultReady spaceAvail = true ∧ tail s.currentRouteF = false) :
    (s.step routeReq tail validOutTemp defaultReady spaceAvail).plannedF = true ∧
      (s.step routeReq tail validOutTemp defaultReady spaceAvail).currentRouteF = s.currentRouteF := by
  simp only [step, plannedTemp_eq, newRouteNeeded_eq]
  rcases h with ⟨hp, hv⟩ | ⟨hv, ht⟩
  · simp [hp, hv]
  · cases hp : s.plannedF with
    | true => simp [hv, ht]
    | false =>
        have hor : s.routeReqAllOrWithPlanned routeReq = true :=
          routeReqAllOrWithPlanned_iff.mpr
            ⟨.a, hd.symm.trans (defaultReady_of_validOut hv hp), by simp [routeReqMask, hp]⟩
        simp [hv, ht, hor]

variable (routeReq tail) in
/-- A free output takes on a route that requests it, other than the one that has just ended; without
a request it goes back to the default. -/
theorem step_free (hcur : s.plannedF = false → s.currentRouteF = .a)
    (h : s.plannedF = false ∧ s.validOut validOutTemp defaultReady spaceAvail = false ∨
      s.validOut validOutTemp defaultReady spaceAvail = true ∧ tail s.currentRouteF = true) :
    let s' := s.step routeReq tail validOutTemp defaultReady spaceAvail
    (s'.plannedF = true ∧ routeReq s'.currentRouteF = true ∧
      (s.validOut validOutTemp defaultReady spaceAvail = true → s'.currentRouteF ≠ s.currentRouteF)) ∨
      s'.plannedF = false ∧ s'.currentRouteF = .a := by
  intro s'
  have hroute : s'.currentRouteF = s.newRoute routeReq := by
    simp only [s', step, newRouteNeeded_eq]
    rcases h with ⟨hp, hv⟩ | ⟨hv, ht⟩
    · simp [hp, hv]
    · simp [hv, ht]
  have hplanned : s'.plannedF = plannedTemp (routeReqAllButDefault routeReq)
      (s.routeReqAllOrWithPlanned routeReq) defaultReady (s.validOut validOutTemp defaultReady spaceAvail)
      (tail s.currentRouteF) s.plannedF := rfl
  rw [hroute, hplanned, plannedTemp_eq]
  rcases s.newRoute_spec routeReq with ⟨hreq, hne⟩ | ⟨hnew, hnone⟩
  · -- another input requests the output
    refine .inl ⟨?_, hreq, fun _ => hne⟩
    have hor : s.routeReqAllOrWithPlanned routeReq = true :=
      routeReqAllOrWithPlanned_iff.mpr ⟨_, hreq, by simp [routeReqMask, Ne.symm hne]⟩
    cases hp : s.plannedF with
    | true => simp [hor]
    | false =>
        have hbut : routeReqAllButDefault routeReq = true :=
          routeReqAllButDefault_iff.mpr ⟨_, hcur hp ▸ hne, hreq⟩
        simp [hor, hbut]
  · rw [hnew]
    rcases h with ⟨hp, hv⟩ | ⟨hv, ht⟩
    · -- only the default may request it
      cases ha : routeReq .a with
      | true =>
          have hor : s.routeReqAllOrWithPlanned routeReq = true :=
            routeReqAllOrWithPlanned_iff.mpr ⟨.a, ha, by simp [routeReqMask, hp]⟩
          exact .inl ⟨by simp [hor, hv], rfl, fun hv' => by rw [hv] at hv'; cases hv'⟩
      | false =>
          have hor : s.routeReqAllOrWithPlanned routeReq = false := by
            rw [← Bool.not_eq_true, routeReqAllOrWithPlanned_iff]
            rintro ⟨r, hr, -⟩
            by_cases hra : r = .a
            · rw [hra, ha] at hr
              cases hr
            · rw [hnone r (by rw [hcur hp]; exact hra)] at hr
              cases hr
          exact .inr ⟨by simp [hor, hp], rfl⟩
    · -- the packet of the only input that requests it ends
      refine .inr ⟨?_, rfl⟩
      cases hp : s.plannedF with
      | true =>
          have hor : s.routeReqAllOrWithPlanned routeReq = false := by
            rw [← Bool.not_eq_true, routeReqAllOrWithPlanned_iff]
            rintro ⟨r, hr, hm⟩
            by_cases hrc : r = s.currentRouteF
            · simp [routeReqMask, hp, hrc] at hm
            · rw [hnone r hrc] at hr
              cases hr
          simp [hor, hv, ht]
      | false =>
          have hbut : routeReqAllButDefault routeReq = false := by
            rw [← Bool.not_eq_true, routeReqAllButDefault_iff]
            rintro ⟨r, hra, hr⟩
            rw [hnone r (by rw [hcur hp]; exact hra)] at hr
            cases hr
          have hdr := defaultReady_of_validOut hv hp
          rw [hv, ht, hbut, hdr]
          simp

end OutputControl

end OpenPiton.Router
