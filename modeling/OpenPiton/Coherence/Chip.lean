import OpenPiton.Coherence.Safety

namespace OpenPiton.Coherence

open L2 (Request Noc2 Noc3 CacheSet SetCfg ToMem MemAck Out Block)

variable {n : Nat} {ι κ α : Type*} [DecidableEq ι] [DecidableEq κ]

/-! ## Queues that sets share -/

/-- The messages of a set, in order. -/
def ofSet (i : ι) (q : List (ι × α)) : List α := q.filterMap fun m => if m.1 = i then some m.2 else none

def tagged (i : ι) (ms : List α) : List (ι × α) := ms.map (Prod.mk i)

/-- The first message of a queue, when it is one of the set, and the others. -/
def first (i : ι) (q : List (ι × α)) : Option (α × List (ι × α)) :=
  match q with
  | [] => none
  | (j, m) :: ms => if j = i then some (m, ms) else none

/-- The queues between the tiles and the slices with another one for a tile and a slice. -/
def put (qs : κ → Fin n → List (ι × α)) (k : κ) (a : Fin n) (q : List (ι × α)) : κ → Fin n → List (ι × α) :=
  Function.update qs k (Function.update (qs k) a q)

section Queues

variable {i j : ι} {q : List (ι × α)} {m : α}

@[simp] theorem ofSet_append (i : ι) (q r : List (ι × α)) : ofSet i (q ++ r) = ofSet i q ++ ofSet i r :=
  List.filterMap_append

@[simp] theorem ofSet_tagged (i : ι) (ms : List α) : ofSet i (tagged i ms) = ms := by
  simp [ofSet, tagged, List.filterMap_map]

theorem ofSet_tagged_ne (h : j ≠ i) (ms : List α) : ofSet j (tagged i ms) = [] := by
  simp [ofSet, tagged, h.symm]

@[simp] theorem ofSet_cons (i : ι) (m : α) (q : List (ι × α)) : ofSet i ((i, m) :: q) = m :: ofSet i q := by
  simp [ofSet]

theorem ofSet_cons_ne (h : j ≠ i) (m : α) (q : List (ι × α)) : ofSet j ((i, m) :: q) = ofSet j q := by
  simp [ofSet, h.symm]

theorem first_eq_some {ms : List (ι × α)} (h : first i q = some (m, ms)) : q = (i, m) :: ms := by
  unfold first at h
  split at h
  · cases h
  · split at h
    · rename_i hj
      cases h
      rw [hj]
    · cases h

variable {qs : κ → Fin n → List (ι × α)} {k k' : κ} {a : Fin n}

theorem ofSet_put : (fun t => ofSet i (put qs k a q k t)) = Function.update (fun t => ofSet i (qs k t)) a (ofSet i q) := by
  funext t
  by_cases ht : t = a
  · subst ht
    simp [put]
  · simp [put, ht]

/-- Another set does not see a queue change that is not about it. -/
theorem ofSet_put_ne (h : ofSet j q = ofSet j (qs k a)) :
    (fun t => ofSet j (put qs k a q k' t)) = fun t => ofSet j (qs k' t) := by
  funext t
  by_cases hk : k' = k
  · subst hk
    by_cases ht : t = a
    · subst ht
      simp [put, h]
    · simp [put, ht]
  · simp [put, hk]

theorem ofSet_push_ne (h : j ≠ i) (ms : List α) :
    (fun t => ofSet j (put qs k a (qs k a ++ tagged i ms) k' t)) = fun t => ofSet j (qs k' t) :=
  ofSet_put_ne (by rw [ofSet_append, ofSet_tagged_ne h, List.append_nil])

theorem ofSet_pop_ne (h : j ≠ i) (hq : qs k a = (i, m) :: q) :
    (fun t => ofSet j (put qs k a q k' t)) = fun t => ofSet j (qs k' t) :=
  ofSet_put_ne (by rw [hq, ofSet_cons_ne h])

end Queues

/-! ## The slices of a chip -/

/-- The tiles with all slices of the L2 and their sets. A tile and a slice share one queue for all sets of the
slice; the entries of the MSHR files, the atomics and the memory are apart for each set, which leaves every order
of them open. -/
structure Chip (n : Nat) (κ ι : Type*) where
  tile : Fin n → ι → Tile
  noc1 : κ → Fin n → List (ι × Request n)
  noc2 : κ → Fin n → List (ι × Noc2)
  noc3 : κ → Fin n → List (ι × Noc3)
  l2 : ι → CacheSet n
  toMem : ι → List ToMem
  fromMem : ι → List MemAck
  memory : ι → Addr → Block

namespace Chip

-- `home` is the slice of a set
variable (cfg : SetCfg n) (home : ι → κ) (s : Chip n κ ι) (i : ι)

def tileStep (a : Fin n) (t : Tile) (noc1 : List (Request n)) (noc3 : List Noc3) : Chip n κ ι :=
  { s with
    tile := Function.update s.tile a (Function.update (s.tile a) i t)
    noc1 := put s.noc1 (home i) a (s.noc1 (home i) a ++ tagged i noc1)
    noc3 := put s.noc3 (home i) a (s.noc3 (home i) a ++ tagged i noc3) }

def l2Step (h : CacheSet n) (out : Out) : Chip n κ ι :=
  { s with
    l2 := Function.update s.l2 i h
    noc2 := Function.update s.noc2 (home i) fun a => s.noc2 (home i) a ++ tagged i (System.sent out a)
    toMem := Function.update s.toMem i (s.toMem i ++ out.mem) }

def request (a : Fin n) (r : Pcx) : Option (Chip n κ ι) :=
  if System.allowed r.reqtype then ((s.tile a i).request a r).map fun p => s.tileStep home i a p.1 p.2.1 p.2.2 else none

def evict (a : Fin n) (addr : Addr) : Option (Chip n κ ι) :=
  let p := (s.tile a i).evict a addr
  some (s.tileStep home i a p.1 p.2.1 p.2.2)

def dropInstr (a : Fin n) (addr : Addr) : Option (Chip n κ ι) :=
  some (s.tileStep home i a ((s.tile a i).dropInstr addr) [] [])

def receive (a : Fin n) : Option (Chip n κ ι) :=
  (first i (s.noc2 (home i) a)).map fun q =>
    let p := (s.tile a i).receive q.1
    { s with noc2 := put s.noc2 (home i) a q.2 }.tileStep home i a p.1 [] p.2

def accept (a : Fin n) (victim : Nat) (recycle : Bool) : Option (Chip n κ ι) :=
  (first i (s.noc1 (home i) a)).bind fun q =>
    if (s.l2 i).mshr.isNone ∧ victim < cfg.ways ∧ (s.l2 i).atomic.all (· == a) then
      ((s.l2 i).accept cfg q.1 victim recycle).map fun r =>
        { s.l2Step home i r.1 r.2.1 with noc1 := if r.2.2 then put s.noc1 (home i) a q.2 else s.noc1 }
    else none

def replay (victim : Nat) (recycle : Bool) : Option (Chip n κ ι) :=
  (s.l2 i).mshr.bind fun e =>
    if e.pending ∧ victim < cfg.ways then
      ((s.l2 i).replay cfg e victim recycle).map fun r => s.l2Step home i r.1 r.2
    else none

def retry : Option (Chip n κ ι) :=
  (s.l2 i).mshr.bind fun e => ((s.l2 i).retry e).map fun h => { s with l2 := Function.update s.l2 i h }

def answer (a : Fin n) : Option (Chip n κ ι) :=
  (first i (s.noc3 (home i) a)).bind fun q =>
    ((s.l2 i).answer cfg q.1).map fun h =>
      { s with l2 := Function.update s.l2 i h, noc3 := put s.noc3 (home i) a q.2 }

def fill : Option (Chip n κ ι) :=
  match s.fromMem i with
  | [] => none
  | m :: ms =>
      (s.l2 i).mshr.map fun e =>
        { s with l2 := Function.update s.l2 i ((s.l2 i).fill e m), fromMem := Function.update s.fromMem i ms }

def memoryNext : Option (Chip n κ ι) :=
  match s.toMem i with
  | [] => none
  | .load tag :: ms =>
      some
        { s with
          toMem := Function.update s.toMem i ms
          fromMem := Function.update s.fromMem i (s.fromMem i ++ [.load fun k => s.memory i (tag, k)]) }
  | .store tag data :: ms =>
      some
        { s with
          toMem := Function.update s.toMem i ms
          memory := Function.update s.memory i fun a => if a.1 = tag then data a.2 else s.memory i a }
  | .ncStore tag subline merge :: ms =>
      some
        { s with
          toMem := Function.update s.toMem i ms
          fromMem := Function.update s.fromMem i (s.fromMem i ++ [.ncStore])
          memory :=
            Function.update s.memory i
              (Function.update (s.memory i) (tag, subline) (merge (s.memory i (tag, subline)))) }

def next (e : ι × Event n) : Option (Chip n κ ι) :=
  match e.2 with
  | .request a r => s.request home e.1 a r
  | .evict a addr => s.evict home e.1 a addr
  | .dropInstr a addr => s.dropInstr home e.1 a addr
  | .receive a => s.receive home e.1 a
  | .accept a victim recycle => s.accept cfg home e.1 a victim recycle
  | .replay victim recycle => s.replay cfg home e.1 victim recycle
  | .retry => s.retry e.1
  | .answer a => s.answer cfg home e.1 a
  | .fill => s.fill e.1
  | .memory => s.memoryNext e.1

/-- What is of a set. -/
def set : System n where
  tile a := s.tile a i
  noc1 a := ofSet i (s.noc1 (home i) a)
  noc2 a := ofSet i (s.noc2 (home i) a)
  noc3 a := ofSet i (s.noc3 (home i) a)
  l2 := s.l2 i
  toMem := s.toMem i
  fromMem := s.fromMem i
  memory := s.memory i

/-- The states that the events of the sets lead to from empty caches. -/
inductive Reachable : Chip n κ ι → Prop
  | init {s : Chip n κ ι} : (∀ i, (s.set home i).Init) → Reachable s
  | step {s s' : Chip n κ ι} {e : ι × Event n} : Reachable s → s.next cfg home e = some s' → Reachable s'

/-! ## Every set runs on its own -/

/-- What an event of a set is for that set and for another. -/
def Steps (e : Event n) (s' : Chip n κ ι) : Prop :=
  (s.set home i).next cfg e = some (s'.set home i) ∧ ∀ j, j ≠ i → s'.set home j = s.set home j

variable {cfg home s i} {s' : Chip n κ ι} {j : ι}

theorem update_apply {γ β δ : Type*} [DecidableEq γ] (f : β → δ) (g : γ → β) (a : γ) (b : β) :
    (fun t => f (Function.update g a b t)) = Function.update (fun t => f (g t)) a (f b) :=
  Function.comp_update f g a b

theorem set_tileStep (a : Fin n) (t : Tile) (qs : List (Request n)) (ms : List Noc3) :
    (s.tileStep home i a t qs ms).set home i = (s.set home i).tileStep a t qs ms := by
  simp [tileStep, set, System.tileStep, update_apply (fun x : ι → Tile => x i), ofSet_put]

theorem set_tileStep_ne (h : j ≠ i) (a : Fin n) (t : Tile) (qs : List (Request n)) (ms : List Noc3) :
    (s.tileStep home i a t qs ms).set home j = s.set home j := by
  simp [tileStep, set, update_apply (fun x : ι → Tile => x j), ofSet_push_ne h, h]

theorem set_l2Step (h' : CacheSet n) (out : Out) : (s.l2Step home i h' out).set home i = (s.set home i).l2Step h' out := by
  simp [l2Step, set, System.l2Step]

theorem set_l2Step_ne (h : j ≠ i) (h' : CacheSet n) (out : Out) : (s.l2Step home i h' out).set home j = s.set home j := by
  by_cases hk : home j = home i <;> simp [l2Step, set, ofSet_tagged_ne h, h, hk]

theorem request_steps {a : Fin n} {r : Pcx} (hn : s.request home i a r = some s') :
    Steps cfg home s i (.request a r) s' := by
  unfold request at hn
  split at hn
  · rename_i ha
    obtain ⟨p, hp, rfl⟩ := Option.map_eq_some_iff.1 hn
    refine ⟨?_, fun j h => set_tileStep_ne h a _ _ _⟩
    rw [set_tileStep]
    exact (if_pos ha).trans (congrArg (Option.map _) hp)
  · cases hn

theorem receive_steps {a : Fin n} (hn : s.receive home i a = some s') : Steps cfg home s i (.receive a) s' := by
  obtain ⟨⟨m, ms⟩, hq, rfl⟩ := Option.map_eq_some_iff.1 hn
  have hq := first_eq_some hq
  refine ⟨?_, fun j h => ?_⟩
  · rw [set_tileStep]
    simp only [System.next, System.receive, set, hq, ofSet_cons]
    simp [ofSet_put]
  · rw [set_tileStep_ne h]
    simp [set, ofSet_pop_ne h hq]

theorem accept_steps {a : Fin n} {victim : Nat} {recycle : Bool} (hn : s.accept cfg home i a victim recycle = some s') :
    Steps cfg home s i (.accept a victim recycle) s' := by
  obtain ⟨⟨m, ms⟩, hq, hn⟩ := Option.bind_eq_some_iff.1 hn
  have hq := first_eq_some hq
  split at hn
  · rename_i ha
    obtain ⟨⟨h', out, taken⟩, hr, rfl⟩ := Option.map_eq_some_iff.1 hn
    refine ⟨?_, fun j h => ?_⟩
    · simp only [System.next, System.accept, set, hq, ofSet_cons, if_pos ha, hr, Option.map_some]
      cases taken <;> simp [l2Step, System.l2Step, ofSet_put]
    · refine (set_l2Step_ne (s := { s with noc1 := if taken then put s.noc1 (home i) a ms else s.noc1 }) h h' out).trans ?_
      cases taken <;> simp [set, ofSet_pop_ne h hq]
  · cases hn

theorem replay_steps {victim : Nat} {recycle : Bool} (hn : s.replay cfg home i victim recycle = some s') :
    Steps cfg home s i (.replay victim recycle) s' := by
  obtain ⟨e, he, hn⟩ := Option.bind_eq_some_iff.1 hn
  split at hn
  · rename_i hp
    obtain ⟨r, hr, rfl⟩ := Option.map_eq_some_iff.1 hn
    refine ⟨?_, fun j h => set_l2Step_ne h _ _⟩
    rw [set_l2Step]
    simp only [System.next, System.replay, set, he, Option.bind_some, if_pos hp, hr, Option.map_some]
  · cases hn

omit [DecidableEq κ] in
theorem retry_steps (hn : s.retry i = some s') : Steps cfg home s i .retry s' := by
  obtain ⟨e, he, hn⟩ := Option.bind_eq_some_iff.1 hn
  obtain ⟨h, hh, rfl⟩ := Option.map_eq_some_iff.1 hn
  refine ⟨?_, fun j hj => by simp [set, hj]⟩
  simp [System.next, System.retry, set, he, hh]

theorem answer_steps {a : Fin n} (hn : s.answer cfg home i a = some s') : Steps cfg home s i (.answer a) s' := by
  obtain ⟨⟨m, ms⟩, hq, hn⟩ := Option.bind_eq_some_iff.1 hn
  obtain ⟨h, hh, rfl⟩ := Option.map_eq_some_iff.1 hn
  have hq := first_eq_some hq
  refine ⟨?_, fun j hj => ?_⟩
  · simp [System.next, System.answer, set, hq, hh, ofSet_put]
  · simp [set, ofSet_pop_ne hj hq, hj]

omit [DecidableEq κ] in
theorem fill_steps (hn : s.fill i = some s') : Steps cfg home s i .fill s' := by
  unfold fill at hn
  split at hn
  · cases hn
  · rename_i m ms hq
    obtain ⟨e, he, rfl⟩ := Option.map_eq_some_iff.1 hn
    refine ⟨?_, fun j hj => by simp [set, hj]⟩
    simp [System.next, System.fill, set, hq, he]

omit [DecidableEq κ] in
theorem memory_steps (hn : s.memoryNext i = some s') : Steps cfg home s i .memory s' := by
  unfold memoryNext at hn
  split at hn
  · cases hn
  all_goals
    rename_i hq
    cases hn
    refine ⟨?_, fun j hj => by simp [set, hj]⟩
    simp [System.next, System.memoryNext, set, hq]

/-- An event of a set is one of the set alone, and nothing happens to the others. -/
theorem next_steps {e : Event n} (hn : s.next cfg home (i, e) = some s') : Steps cfg home s i e s' := by
  cases e with
  | request a r => exact request_steps hn
  | evict a addr | dropInstr a addr =>
      cases hn
      exact ⟨congrArg some (set_tileStep a _ _ _).symm, fun j h => set_tileStep_ne h a _ _ _⟩
  | receive a => exact receive_steps hn
  | accept a victim recycle => exact accept_steps hn
  | replay victim recycle => exact replay_steps hn
  | retry => exact retry_steps hn
  | answer a => exact answer_steps hn
  | fill => exact fill_steps hn
  | memory => exact memory_steps hn

theorem Reachable.set (hr : Reachable cfg home s) (i : ι) : System.Reachable cfg (s.set home i) := by
  induction hr with
  | init hi => exact .init (hi i)
  | step _ hn ih =>
      rename_i e _
      obtain ⟨hj, hother⟩ := next_steps hn
      by_cases h : i = e.1
      · subst h
        exact ih.step hj
      · rw [hother i h]
        exact ih

/-! ## Two tiles and two sets of a slice -/

/-- The state after some events. -/
def run (cfg : SetCfg n) (home : ι → κ) (s : Chip n κ ι) : List (ι × Event n) → Option (Chip n κ ι)
  | [] => some s
  | e :: es => (s.next cfg home e).bind fun s' => s'.run cfg home es

theorem Reachable.run (hr : Reachable cfg home s) {es : List (ι × Event n)} (h : s.run cfg home es = some s') :
    Reachable cfg home s' := by
  induction es generalizing s with
  | nil => exact Option.some.inj h ▸ hr
  | cons e es ih =>
      obtain ⟨s1, h1, h2⟩ := Option.bind_eq_some_iff.1 h
      exact ih (hr.step h1) h2

/-- A chip with empty caches. -/
def cold : Chip n κ ι where
  tile _ _ := { copy := fun _ => ⟨.i, 0, false⟩, instr := fun _ => none, mshr := fun _ => none }
  noc1 _ _ := []
  noc2 _ _ := []
  noc3 _ _ := []
  l2 _ :=
    { lines := ⟨fun _ => 0, fun _ => ⟨.i, .inval, .data, 0, 0⟩⟩, dir := fun _ _ => false, data := fun _ _ => 0, mshr := none,
      atomic := none, casCmp := false, readData := 0 }
  toMem _ := []
  fromMem _ := []
  memory _ _ := 0

theorem cold_run {β : Type*} {f : Chip n κ ι → β} {b : β} {es : List (ι × Event n)}
    (h : (cold.run cfg home es).map f = some b) :
    ∃ s, cold.run cfg home es = some s ∧ f s = b ∧ Reachable cfg home s := by
  have hi (i : ι) : ((cold : Chip n κ ι).set home i).Init := by
    constructor <;> intros <;> rfl
  obtain ⟨s, h1, h2⟩ := Option.map_eq_some_iff.1 h
  exact ⟨s, h1, h2, (Reachable.init hi).run h1⟩

def two : SetCfg 2 := ⟨4, 6, Nat.zero_lt_succ 5, Nat.le_add_right 2 62⟩

def tile0 : Fin 2 := ⟨0, Nat.two_pos⟩

def tile1 : Fin 2 := ⟨1, Nat.one_lt_two⟩

def slice : Bool → Unit := fun _ => ()

def access (reqtype : L15.Reqtype) : Pcx := ⟨reqtype, (0, 0), id, fun _ => false⟩

/-- The first tile stores to a line of a set and loads one of the other. Both come from the memory. -/
def stored : List (Bool × Event 2) :=
  [(false, .request tile0 (access .store)), (true, .request tile0 (access .load)), (false, .accept tile0 0 false),
    (true, .accept tile0 1 false), (true, .memory), (false, .memory), (false, .fill), (false, .replay 0 false),
    (false, .receive tile0)]

/-- The other tile loads the line of the store; the first one has been asked for it. -/
def forwarded : List (Bool × Event 2) :=
  stored ++ [(false, .request tile1 (access .load)), (false, .accept tile1 0 false), (false, .receive tile0)]

/-- The first tile evicts the line of the store. -/
def evicted : List (Bool × Event 2) := stored ++ [(false, .evict tile0 (0, 0))]

/-- The first tile reserves a line. -/
def reserved : List (Bool × Event 2) :=
  [(false, .request tile0 (access .amoLr)), (false, .accept tile0 0 false), (false, .memory), (false, .fill),
    (false, .replay 0 false), (false, .receive tile0)]

/-! ## What holds of every run -/

/-- In every set the tiles are coherent. -/
theorem tiles_coherent (hr : Reachable cfg home s) (i : ι) : (s.set home i).Coherent cfg := (hr.set i).inv.coherent_tiles

theorem tiles_coherent_stored : ∃ s, cold.run two slice stored = some s ∧ ((s.tile tile0 false).copy (0, 0)).mesi = .m ∧
    (s.set slice false).Coherent two := by
  obtain ⟨s, h, hs, hr⟩ := cold_run (f := fun s => ((s.tile tile0 false).copy (0, 0)).mesi) (b := .m)
    (by decide : (cold.run two slice stored).map _ = _)
  exact ⟨s, h, hs, tiles_coherent hr false⟩

/-- No request of a tile is lost or answered twice. -/
theorem requests_accounted (hr : Reachable cfg home s) (i : ι) : (s.set home i).Accounted := (hr.set i).inv.accounted

theorem requests_accounted_forwarded : ∃ s, cold.run two slice forwarded = some s ∧
    ((s.tile tile1 false).mshr (0, 0)).isSome = true ∧ (s.set slice false).Accounted := by
  obtain ⟨s, h, hs, hr⟩ := cold_run (f := fun s => ((s.tile tile1 false).mshr (0, 0)).isSome) (b := true)
    (by decide : (cold.run two slice forwarded).map _ = _)
  exact ⟨s, h, hs, requests_accounted hr false⟩

/-- A write-back finds its line, and nobody else has it. -/
theorem backs_owned (hr : Reachable cfg home s) (i : ι) : (s.set home i).BacksOwned cfg := (hr.set i).inv.backsOwned

theorem backs_owned_evicted : ∃ s, cold.run two slice evicted = some s ∧ (s.noc3 () tile0).length = 1 ∧
    (s.set slice false).BacksOwned two := by
  obtain ⟨s, h, hs, hr⟩ := cold_run (f := fun s => (s.noc3 () tile0).length) (b := 1)
    (by decide : (cold.run two slice evicted).map _ = _)
  exact ⟨s, h, hs, backs_owned hr false⟩

/-- A reservation lasts only while no other tile has the line. -/
theorem reservations_exclusive (hr : Reachable cfg home s) (i : ι) : (s.set home i).Reserved := (hr.set i).inv.reserved

theorem reservations_exclusive_reserved : ∃ s, cold.run two slice reserved = some s ∧
    ((s.tile tile0 false).copy (0, 0)).lrsc = true ∧ (s.set slice false).Reserved := by
  obtain ⟨s, h, hs, hr⟩ := cold_run (f := fun s => ((s.tile tile0 false).copy (0, 0)).lrsc) (b := true)
    (by decide : (cold.run two slice reserved).map _ = _)
  exact ⟨s, h, hs, reservations_exclusive hr false⟩

theorem answers_defined (hr : Reachable cfg home s) (i : ι) : (s.set home i).Answerable cfg := (hr.set i).inv.answerable

theorem answers_defined_forwarded : ∃ s, cold.run two slice forwarded = some s ∧ (s.noc3 () tile0).length = 1 ∧
    (s.set slice false).Answerable two := by
  obtain ⟨s, h, hs, hr⟩ := cold_run (f := fun s => (s.noc3 () tile0).length) (b := 1)
    (by decide : (cold.run two slice forwarded).map _ = _)
  exact ⟨s, h, hs, answers_defined hr false⟩

end Chip

end OpenPiton.Coherence
