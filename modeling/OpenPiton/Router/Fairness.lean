import OpenPiton.Router.Control
import OpenPiton.Lib.Machine
import Mathlib.Data.List.TakeWhile

namespace OpenPiton.Router

/-- The inputs of `dynamic_output_control`. -/
structure ControlIn where
  routeReq : Route → Bool
  tail : Route → Bool
  validOutTemp : Bool
  defaultReady : Bool
  spaceAvail : Bool

def Route.index : Route → Nat
  | .a => 0
  | .b => 1
  | .c => 2
  | .d => 3
  | .x => 4

/-- The place of an input in the round that ends with `w`. -/
def Route.rank (w r : Route) : Nat := (r.index + 4 - w.index) % 5

theorem Route.rank_inj {w r r' : Route} (h : w.rank r = w.rank r') : r = r' := by
  revert h
  cases w <;> cases r <;> cases r' <;> decide

theorem Route.rank_lt {w r : Route} (h : r ≠ w) : w.rank r < 4 := by
  revert h
  cases w <;> cases r <;> decide

namespace OutputControl

variable (s : OutputControl) (i : ControlIn)

def stepIn : OutputControl := s.step i.routeReq i.tail i.validOutTemp i.defaultReady i.spaceAvail

def validOutIn : Bool := s.validOut i.validOutTemp i.defaultReady i.spaceAvail

/-- A flit that leaves ends the packet. -/
def ends : Bool := s.validOutIn i && i.tail s.currentRouteF

def routeNeeded : Bool := newRouteNeeded i.defaultReady (s.validOutIn i) (i.tail s.currentRouteF) s.plannedF

/-- The inputs that are granted the output in a cycle: the default, whose packet begins without a plan, and the one
that is planned for the next packet. -/
def granted : List Route :=
  (if !s.plannedF && s.validOutIn i then [s.currentRouteF] else []) ++
    if s.routeNeeded i && (s.stepIn i).plannedF then [(s.stepIn i).currentRouteF] else []

def grants (s : OutputControl) : List ControlIn → List Route
  | [] => []
  | i :: is => s.granted i ++ (s.stepIn i).grants is

/-- The inputs whose packets end, in order. -/
def ended (s : OutputControl) : List ControlIn → List Route
  | [] => []
  | i :: is => (if s.ends i then [s.currentRouteF] else []) ++ (s.stepIn i).ended is

/-- The input that has the output. -/
def holder : Option Route := if s.plannedF then some s.currentRouteF else none

/-- Without a plan the default is the current route. -/
def Rests : Prop := s.plannedF = false → s.currentRouteF = .a

variable {s i} {w : Route}

theorem routeNeeded_eq : s.routeNeeded i = if s.validOutIn i then i.tail s.currentRouteF else !s.plannedF :=
  newRouteNeeded_eq _ _ _ _

theorem stepIn_planned : (s.stepIn i).plannedF =
    if s.routeReqAllOrWithPlanned i.routeReq then
      (if i.defaultReady && s.validOutIn i && i.tail s.currentRouteF && !s.plannedF then routeReqAllButDefault i.routeReq
        else true)
    else s.plannedF && !s.ends i :=
  plannedTemp_eq _ _ _ _ _ _

theorem stepIn_route : (s.stepIn i).currentRouteF = if s.routeNeeded i then s.newRoute i.routeReq else s.currentRouteF :=
  rfl

theorem rank_newRoute {routeReq : Route → Bool} (hw : routeReq w = true) (hne : s.currentRouteF ≠ w) :
    w.rank s.currentRouteF < w.rank (s.newRoute routeReq) := by
  unfold newRoute
  revert hne
  cases s.currentRouteF <;> intro hne <;> cases w <;> first
    | exact absurd rfl hne
    | (simp only [hw, if_true]; repeat' split) <;> decide

theorem allOr_of_request (hw : i.routeReq w = true) (h : s.plannedF = true → s.currentRouteF ≠ w) :
    s.routeReqAllOrWithPlanned i.routeReq = true := by
  refine routeReqAllOrWithPlanned_iff.mpr ⟨w, hw, ?_⟩
  cases hp : s.plannedF with
  | false => simp [routeReqMask, hp]
  | true => simp [routeReqMask, hp, h hp]

theorem newRoute_of_none (ho : s.routeReqAllOrWithPlanned i.routeReq = false) : s.newRoute i.routeReq = .a := by
  rcases s.newRoute_spec i.routeReq with ⟨hreq, hne⟩ | ⟨hnew, -⟩
  · rw [allOr_of_request hreq fun _ => hne.symm] at ho
    cases ho
  · exact hnew

theorem Rests.step (h : s.Rests) (i : ControlIn) : (s.stepIn i).Rests := by
  intro hp
  rw [stepIn_planned] at hp
  rw [stepIn_route]
  cases ho : s.routeReqAllOrWithPlanned i.routeReq with
  | true =>
      rw [ho, if_pos rfl] at hp
      split at hp
      case isTrue hcond =>
        simp only [Bool.and_eq_true, Bool.not_eq_true'] at hcond
        obtain ⟨⟨⟨-, hv⟩, ht⟩, hplan⟩ := hcond
        have hnone : ∀ r, r ≠ .a → i.routeReq r = false := by
          intro r hr
          by_contra hreq
          rw [routeReqAllButDefault_iff.mpr ⟨r, hr, Bool.not_eq_false _ ▸ hreq⟩] at hp
          cases hp
        rw [routeNeeded_eq, hv, if_pos rfl, ht, if_pos rfl]
        rcases s.newRoute_spec i.routeReq with ⟨hreq, hne⟩ | ⟨hnew, -⟩
        · rw [h hplan] at hne
          rw [hnone _ hne] at hreq
          cases hreq
        · exact hnew
      case isFalse => cases hp
  | false =>
      rw [ho, if_neg Bool.false_ne_true] at hp
      split
      · exact newRoute_of_none ho
      · rename_i hneed
        rw [routeNeeded_eq] at hneed
        cases hplan : s.plannedF with
        | false => exact h hplan
        | true =>
            rw [hplan, Bool.true_and, Bool.not_eq_false', ends, Bool.and_eq_true] at hp
            rw [hp.1, if_pos rfl] at hneed
            exact absurd hp.2 hneed

/-- Where the next grant stands in the round, at least. -/
def floor (s : OutputControl) (w : Route) : Nat :=
  if s.plannedF then (w.rank s.currentRouteF + 1) % 5 else if w = .a then 0 else w.rank .a

theorem floor_planned {r : Route} (hp : s.plannedF = true) (hr : s.currentRouteF = r) (hne : r ≠ w) :
    s.floor w = w.rank r + 1 := by
  have hlt := Route.rank_lt hne
  rw [floor, hp, if_pos rfl, hr, Nat.mod_eq_of_lt (by omega)]

theorem floor_le_newRoute (h : s.Rests) (hw : i.routeReq w = true) : s.floor w ≤ w.rank (s.newRoute i.routeReq) := by
  by_cases hc : s.currentRouteF = w
  · have hzero : s.floor w = 0 := by
      cases hp : s.plannedF with
      | true =>
          have hself : w.rank w = 4 := by cases w <;> rfl
          rw [floor, hp, if_pos rfl, hc, hself]
      | false => rw [floor, hp, if_neg Bool.false_ne_true, if_pos (hc ▸ h hp)]
    omega
  · have hlt := rank_newRoute (s := s) hw hc
    cases hp : s.plannedF with
    | true => rwa [floor_planned hp rfl hc]
    | false =>
        have ha : w ≠ .a := fun he => hc ((h hp).trans he.symm)
        rw [floor, hp, if_neg Bool.false_ne_true, if_neg ha, ← h hp]
        exact hlt.le

/-- The grants before that of `w` go up in its round. -/
structure Rising (w : Route) (n : Nat) (l : List Route) : Prop where
  sorted : (l.takeWhile (· ≠ w)).Pairwise (w.rank · < w.rank ·)
  bound : ∀ r ∈ l.takeWhile (· ≠ w), n ≤ w.rank r

namespace Rising

variable {n m : Nat} {r : Route} {l : List Route}

theorem mono (h : Rising w m l) (hle : n ≤ m) : Rising w n l := ⟨h.sorted, fun r hr => hle.trans (h.bound r hr)⟩

theorem cons (h : r ≠ w → Rising w (w.rank r + 1) l) (hle : n ≤ w.rank r) : Rising w n (r :: l) := by
  by_cases hr : r = w
  · constructor <;> simp [hr]
  · obtain ⟨hs, hb⟩ := h hr
    have htake : (r :: l).takeWhile (· ≠ w) = r :: l.takeWhile (· ≠ w) := by simp [hr]
    constructor
    · rw [htake, List.pairwise_cons]
      exact ⟨fun r' hr' => hb r' hr', hs⟩
    · rw [htake]
      intro r' hr'
      rcases List.mem_cons.mp hr' with rfl | hr'
      · exact hle
      · have := hb r' hr'
        omega

end Rising

theorem granted_eq : s.granted i =
    (if !s.plannedF && s.validOutIn i then [s.currentRouteF] else []) ++
      if s.routeNeeded i && (s.stepIn i).plannedF then [s.newRoute i.routeReq] else [] := by
  rw [granted]
  congr 1
  cases hn : s.routeNeeded i with
  | false => rfl
  | true => rw [stepIn_route, hn, if_pos rfl]

/-- A grant to `w` or to an input in front of it, which then has the output. -/
theorem rising_newRoute {n : Nat} {l : List Route} (hp : (s.stepIn i).plannedF = true) (hn : s.routeNeeded i = true)
    (hrest : Rising w ((s.stepIn i).floor w) l) (hle : n ≤ w.rank (s.newRoute i.routeReq)) :
    Rising w n (s.newRoute i.routeReq :: l) := by
  refine .cons (fun hne => ?_) hle
  have hr : (s.stepIn i).currentRouteF = s.newRoute i.routeReq := by rw [stepIn_route, hn, if_pos rfl]
  rwa [floor_planned hp hr hne] at hrest

theorem grants_rising (is : List ControlIn) (h : s.Rests) (hw : ∀ i ∈ is, i.routeReq w = true) :
    Rising w (s.floor w) (s.grants is) := by
  induction is generalizing s with
  | nil => constructor <;> simp [grants]
  | cons i is ih =>
      have hreq := hw i List.mem_cons_self
      have hrest := ih (h.step i) fun j hj => hw j (List.mem_cons_of_mem i hj)
      have hplanned := stepIn_planned (s := s) (i := i)
      have hneed := routeNeeded_eq (s := s) (i := i)
      rw [grants, granted_eq]
      cases hp : s.plannedF with
      | false =>
          have hor := allOr_of_request (s := s) hreq fun hp' => absurd hp' (by rw [hp]; exact Bool.false_ne_true)
          rw [hor, if_pos rfl, hp] at hplanned
          rw [hp] at hneed
          cases hv : s.validOutIn i with
          | false =>
              -- nothing leaves, and the next packet is planned
              rw [hv, Bool.and_false, Bool.false_and, Bool.false_and, if_neg Bool.false_ne_true] at hplanned
              rw [hv, if_neg Bool.false_ne_true] at hneed
              rw [hneed, hplanned]
              exact rising_newRoute hplanned hneed hrest (floor_le_newRoute h hreq)
          | true =>
              -- the packet of the default begins
              rw [hv, if_pos rfl] at hneed
              rw [h hp]
              change Rising w _ (.a :: (_ ++ _))
              by_cases ha : w = .a
              · refine .cons (fun hne => absurd ha.symm hne) ?_
                rw [floor, hp, if_neg Bool.false_ne_true, if_pos ha]
                exact Nat.zero_le _
              · have hfloor : s.floor w = w.rank .a := by rw [floor, hp, if_neg Bool.false_ne_true, if_neg ha]
                refine .cons (fun _ => ?_) hfloor.le
                cases ht : i.tail s.currentRouteF with
                | false =>
                    rw [ht, Bool.and_false, Bool.false_and, if_neg Bool.false_ne_true] at hplanned
                    rw [ht] at hneed
                    have hr : (s.stepIn i).currentRouteF = .a := by
                      rw [stepIn_route, hneed, if_neg Bool.false_ne_true, h hp]
                    rw [hneed]
                    rwa [floor_planned hplanned hr (Ne.symm ha)] at hrest
                | true =>
                    have hbut : routeReqAllButDefault i.routeReq = true := routeReqAllButDefault_iff.mpr ⟨w, ha, hreq⟩
                    rw [hbut, ite_self] at hplanned
                    rw [ht] at hneed
                    rw [hneed, hplanned]
                    have hlt := rank_newRoute (s := s) hreq (by rw [h hp]; exact Ne.symm ha)
                    rw [h hp] at hlt
                    exact rising_newRoute hplanned hneed hrest hlt
      | true =>
          cases he : s.ends i with
          | false =>
              -- the packet goes on
              have hneed' : s.routeNeeded i = false := by
                rw [hneed, hp]
                cases hv : s.validOutIn i with
                | false => rfl
                | true => rwa [ends, hv, Bool.true_and] at he
              have hkept : (s.stepIn i).plannedF = true := by
                rw [hplanned, hp, he]
                cases s.routeReqAllOrWithPlanned i.routeReq <;> simp
              have hr : (s.stepIn i).currentRouteF = s.currentRouteF := by
                rw [stepIn_route, hneed', if_neg Bool.false_ne_true]
              rw [hneed']
              have hfloor : (s.stepIn i).floor w = s.floor w := by rw [floor, floor, hkept, hp, hr]
              rwa [hfloor] at hrest
          | true =>
              obtain ⟨hv, ht⟩ := (Bool.and_eq_true _ _).mp he
              rw [hv, if_pos rfl, ht] at hneed
              rw [hneed]
              cases hp' : (s.stepIn i).plannedF with
              | true => exact rising_newRoute hp' hneed hrest (floor_le_newRoute h hreq)
              | false =>
                  -- only `w` requests the output, whose own packet has ended
                  have hc : s.currentRouteF = w := by
                    by_contra hc
                    rw [hp', hp, Bool.not_true, Bool.and_false, if_neg Bool.false_ne_true,
                      allOr_of_request hreq fun _ => hc, if_pos rfl] at hplanned
                    cases hplanned
                  have hself : w.rank w = 4 := by cases w <;> rfl
                  refine hrest.mono ?_
                  rw [floor, hp, if_pos rfl, hc, hself]
                  exact Nat.zero_le _

theorem granted_balance (hw : i.routeReq w = true) :
    s.holder.toList ++ s.granted i =
      (if s.ends i then [s.currentRouteF] else []) ++ (s.stepIn i).holder.toList := by
  have hplanned := stepIn_planned (s := s) (i := i)
  have hroute := stepIn_route (s := s) (i := i)
  have hneed := routeNeeded_eq (s := s) (i := i)
  rw [granted_eq, holder, holder, hroute, hneed]
  rw [ends] at hplanned ⊢
  cases hp : s.plannedF with
  | false =>
      have hor := allOr_of_request (s := s) hw fun hp' => absurd hp' (by rw [hp]; exact Bool.false_ne_true)
      rw [hor, if_pos rfl, hp] at hplanned
      cases hv : s.validOutIn i <;> cases ht : i.tail s.currentRouteF <;> rw [hv, ht] at hplanned <;>
        cases hp' : (s.stepIn i).plannedF <;> simp_all
  | true =>
      rw [hp] at hplanned
      cases hv : s.validOutIn i <;> cases ht : i.tail s.currentRouteF <;> rw [hv, ht] at hplanned <;>
        cases hp' : (s.stepIn i).plannedF <;> simp_all

theorem grants_balance (is : List ControlIn) (hw : ∀ i ∈ is, i.routeReq w = true) :
    s.holder.toList ++ s.grants is = s.ended is ++ (Machine.run stepIn s is).holder.toList := by
  induction is generalizing s with
  | nil => exact List.append_nil _
  | cons i is ih =>
      have hrest := ih (s := s.stepIn i) fun j hj => hw j (List.mem_cons_of_mem i hj)
      rw [grants, ended, ← List.append_assoc, granted_balance (hw i List.mem_cons_self), List.append_assoc, hrest,
        List.append_assoc]
      rfl

/-- While an input requests the output, the others are granted it once at most before it is, and not again the one
that has it; every grant is for one packet. -/
theorem one_round (h : Machine.Reaches (fun s : OutputControl => s = {}) stepIn (fun _ _ => True) s) (w : Route)
    {is : List ControlIn} (hw : ∀ i ∈ is, i.routeReq w = true) :
    (s.holder.toList ++ (s.grants is).takeWhile (· ≠ w)).Nodup ∧ ((s.grants is).takeWhile (· ≠ w)).length ≤ 4 ∧
      s.holder.toList ++ s.grants is = s.ended is ++ (Machine.run stepIn s is).holder.toList := by
  have hs : s.Rests := h.invariant (P := Rests) (fun _ hs _ => by rw [hs]) fun _ i hs _ => hs.step i
  obtain ⟨hsorted, hbound⟩ := grants_rising is hs hw
  have hnodup : ((s.grants is).takeWhile (· ≠ w)).Nodup := hsorted.imp fun hlt he => absurd hlt (by rw [he]; omega)
  refine ⟨?_, ?_, grants_balance is hw⟩
  · refine List.nodup_append.mpr ⟨?_, hnodup, ?_⟩
    · cases s.holder <;> simp
    · rintro r hr r' hr' rfl
      have hne : r ≠ w := by simpa using List.mem_takeWhile_imp hr'
      cases hp : s.plannedF with
      | false =>
          rw [holder, hp] at hr
          cases hr
      | true =>
          rw [holder, hp, if_pos rfl, Option.toList_some, List.mem_singleton] at hr
          have hlow := hbound r hr'
          rw [floor_planned hp hr.symm hne] at hlow
          omega
  · have hranks : (((s.grants is).takeWhile (· ≠ w)).map w.rank).Nodup := hnodup.map fun _ _ he => Route.rank_inj he
    have hsub : ((s.grants is).takeWhile (· ≠ w)).map w.rank ⊆ List.range 4 := by
      intro n hn
      obtain ⟨r, hr, rfl⟩ := List.mem_map.mp hn
      exact List.mem_range.mpr (Route.rank_lt (by simpa using List.mem_takeWhile_imp hr))
    simpa using (List.subperm_of_subset hranks hsub).length_le

/-- Every input but `x` requests the output, and packets of one flit leave. -/
def crowded (validOutTemp : Bool) : ControlIn := ⟨fun r => r != .x, fun _ => true, validOutTemp, true, true⟩

theorem one_round_crowded :
    let is := [crowded true, crowded true, crowded false, crowded true, crowded true]
    ({} : OutputControl).grants is = [.a, .b, .c, .d, .a] ∧
    ((({} : OutputControl).holder.toList ++ (({} : OutputControl).grants is).takeWhile (· ≠ .d)).Nodup ∧
      ((({} : OutputControl).grants is).takeWhile (· ≠ .d)).length ≤ 4 ∧
      ({} : OutputControl).holder.toList ++ ({} : OutputControl).grants is =
        ({} : OutputControl).ended is ++ (Machine.run stepIn {} is).holder.toList) :=
  ⟨by decide, one_round (.start rfl) .d (by decide)⟩

end OutputControl

end OpenPiton.Router
