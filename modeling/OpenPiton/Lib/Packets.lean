import OpenPiton.Lib.Counter
import Mathlib.Data.List.Basic
import Mathlib.Data.List.Infix

namespace OpenPiton.Packets

variable {α : Type*} (len : α → Nat)

/-- A packet whose head says how many items follow. -/
def Whole : List α → Prop
  | [] => False
  | a :: l => l.length = len a

/-- The beginning of a packet, or nothing. -/
def Begun : List α → Prop
  | [] => True
  | a :: l => l.length < len a

/-- The items that the beginning of a packet lacks. -/
def lacks : List α → Nat
  | [] => 0
  | a :: l => len a - l.length

instance : DecidablePred (Whole len)
  | [] => .isFalse id
  | a :: l => inferInstanceAs (Decidable (l.length = len a))

/-- A stream cut into packets, the last one perhaps only begun. -/
structure Cut (ps : List (List α)) (part l : List α) : Prop where
  whole : ∀ p ∈ ps, Whole len p
  begun : Begun len part
  eq : l = ps.flatten ++ part

variable {len} {ps qs : List (List α)} {part l : List α} {a : α}

theorem Whole.ne_nil {p : List α} (h : Whole len p) : p ≠ [] := by
  rintro rfl
  exact h

theorem Begun.lacks_pos (h : Begun len part) (hne : part ≠ []) : 0 < lacks len part := by
  cases part with
  | nil => exact absurd rfl hne
  | cons a l => exact Nat.sub_pos_of_lt h

theorem whole_singleton (h : len a = 0) : Whole len [a] := h.symm

theorem begun_singleton (h : len a ≠ 0) : Begun len [a] := Nat.pos_of_ne_zero h

theorem lacks_snoc (hne : part ≠ []) : lacks len (part ++ [a]) = lacks len part - 1 := by
  cases part with
  | nil => exact absurd rfl hne
  | cons b l =>
      simp only [List.cons_append, lacks, List.length_append, List.length_singleton]
      omega

theorem whole_snoc (h : Begun len part) (hone : lacks len part = 1) : Whole len (part ++ [a]) := by
  cases part with
  | nil => cases hone
  | cons b l =>
      simp only [lacks] at hone
      simp only [List.cons_append, Whole, List.length_append, List.length_singleton]
      omega

theorem begun_snoc (h : Begun len part) (hne : part ≠ []) (hone : lacks len part ≠ 1) : Begun len (part ++ [a]) := by
  cases part with
  | nil => exact absurd rfl hne
  | cons b l =>
      simp only [Begun] at h
      simp only [lacks] at hone
      simp only [List.cons_append, Begun, List.length_append, List.length_singleton]
      omega

theorem whole_unique {p q m : List α} (hp : Whole len p) (hq : Whole len q) (h : p ++ l <+: q ++ m) : p = q ∧ l <+: m := by
  cases p with
  | nil => exact absurd hp id
  | cons a p =>
      cases q with
      | nil => exact absurd hq id
      | cons b q =>
          rw [List.cons_append, List.cons_append, List.cons_prefix_cons] at h
          obtain ⟨rfl, t, ht⟩ := h
          rw [List.append_assoc] at ht
          obtain ⟨rfl, hrest⟩ := List.append_inj ht (hp.trans hq.symm)
          exact ⟨rfl, t, hrest⟩

/-- What has come by of a stream of packets are its first packets, and the beginning of the next. -/
theorem Cut.within (h : Cut len ps part l) (hqs : ∀ q ∈ qs, Whole len q) (hl : l <+: qs.flatten) :
    ps <+: qs ∧ part <+: (qs.drop ps.length).headD [] := by
  obtain ⟨hps, hbegun, rfl⟩ := h
  induction ps generalizing qs with
  | nil =>
      refine ⟨List.nil_prefix, ?_⟩
      rw [List.length_nil, List.drop_zero]
      cases qs with
      | nil => simpa using hl
      | cons q qs =>
          cases part with
          | nil => exact List.nil_prefix
          | cons a l =>
              have hq := hqs q List.mem_cons_self
              cases q with
              | nil => exact absurd hq id
              | cons b q =>
                  rw [List.flatten_cons, List.flatten_nil, List.nil_append, List.cons_append, List.cons_prefix_cons] at hl
                  obtain ⟨rfl, hl⟩ := hl
                  refine List.cons_prefix_cons.mpr ⟨rfl, ?_⟩
                  have hle : l.length ≤ q.length := by
                    have hlt : l.length < len a := hbegun
                    have hlen : q.length = len a := hq
                    omega
                  exact List.prefix_of_prefix_length_le hl (List.prefix_append q _) hle
  | cons p ps ih =>
      cases qs with
      | nil =>
          have hp := hps p List.mem_cons_self
          cases p with
          | nil => exact absurd hp id
          | cons a p => simp at hl
      | cons q qs =>
          rw [List.flatten_cons, List.flatten_cons, List.append_assoc] at hl
          obtain ⟨rfl, hrest⟩ := whole_unique (hps p List.mem_cons_self) (hqs q List.mem_cons_self) hl
          obtain ⟨hpre, hpart⟩ := ih (fun q hq => hqs q (List.mem_cons_of_mem _ hq))
            (fun p hp => hps p (List.mem_cons_of_mem _ hp)) hrest
          exact ⟨List.cons_prefix_cons.mpr ⟨rfl, hpre⟩, by simpa using hpart⟩

/-- Every place of a stream of packets is in one of them. -/
theorem exists_packet {k : Nat} (h : k < ps.flatten.length) :
    ∃ done p rest j, ps = done ++ p :: rest ∧ j < p.length ∧ k = done.flatten.length + j := by
  induction ps generalizing k with
  | nil => exact absurd h (Nat.not_lt_zero k)
  | cons p ps ih =>
      by_cases hk : k < p.length
      · exact ⟨[], p, ps, k, rfl, hk, (Nat.zero_add k).symm⟩
      · rw [List.flatten_cons, List.length_append] at h
        obtain ⟨done, q, rest, j, rfl, hj, he⟩ := ih (k := k - p.length) (by omega)
        refine ⟨p :: done, q, rest, j, rfl, hj, ?_⟩
        rw [List.flatten_cons, List.length_append]
        omega

section Shared

variable {ι : Type*} [DecidableEq ι]

/-- The packets of one stream in a list of packets of many. -/
def own (done : List (ι × List α)) (i : ι) : List (List α) := (done.filter (·.1 = i)).map Prod.snd

variable (len) in
/-- One stream has the packets of many streams, whole and in the order of each; the last packet perhaps only begun. -/
structure Shares (done : List (ι × List α)) (current : Option ι) (part : List α) (many : ι → List α) (one : List α) :
    Prop where
  whole : ∀ e ∈ done, Whole len e.2
  begun : Begun len part
  idle_iff : current = none ↔ part = []
  one : one = done.flatMap Prod.snd ++ part
  many : ∀ i, many i = (own done i).flatten ++ if current = some i then part else []

variable {done : List (ι × List α)} {current : Option ι} {many : ι → List α} {one : List α} {i : ι}

theorem own_snoc (i j : ι) (p : List α) : own (done ++ [(i, p)]) j = own done j ++ if i = j then [p] else [] := by
  rw [own, List.filter_append, List.map_append, own]
  by_cases h : i = j <;> simp [h]

theorem Shares.start : Shares len ([] : List (ι × List α)) none [] (fun _ => []) [] where
  whole := fun _ h => by cases h
  begun := trivial
  idle_iff := by simp
  one := rfl
  many := fun i => by simp [own]

theorem Shares.cut (h : Shares len done current part many one) (i : ι) :
    Cut len (own done i) (if current = some i then part else []) (many i) where
  whole := by
    intro p hp
    obtain ⟨e, he, rfl⟩ := List.mem_map.mp hp
    exact h.whole e (List.mem_filter.mp he).1
  begun := by
    split
    · exact h.begun
    · trivial
  eq := h.many i

theorem Shares.cut_one (h : Shares len done current part many one) : Cut len (done.map Prod.snd) part one where
  whole := by
    intro p hp
    obtain ⟨e, he, rfl⟩ := List.mem_map.mp hp
    exact h.whole e he
  begun := h.begun
  eq := h.one

/-- An item of a packet goes over: the first of one when none is open, or the next of the open one. -/
theorem Shares.transfer (h : Shares len done current part many one) (hi : current = none ∨ current = some i) {a : α} {left : Nat}
    (hleft : left = if current = none then len a else lacks len part - 1) :
    Shares len (if left = 0 then done ++ [(i, part ++ [a])] else done) (if left = 0 then none else some i)
      (if left = 0 then [] else part ++ [a]) (fun j => many j ++ if i = j then [a] else []) (one ++ [a]) ∧
      lacks len (if left = 0 then [] else part ++ [a]) = left := by
  have hmany := h.many
  have hfits : (left = 0 → Whole len (part ++ [a])) ∧ (left ≠ 0 → Begun len (part ++ [a]) ∧ lacks len (part ++ [a]) = left) := by
    rcases hi with rfl | rfl
    · obtain rfl : part = [] := h.idle_iff.mp rfl
      rw [if_pos rfl] at hleft
      exact ⟨fun hz => whole_singleton (hleft ▸ hz), fun hz => ⟨begun_singleton (hleft ▸ hz), hleft.symm⟩⟩
    · have hne : part ≠ [] := fun he => by cases h.idle_iff.mpr he
      have hpos := h.begun.lacks_pos hne
      rw [if_neg (Option.some_ne_none i)] at hleft
      refine ⟨fun hz => whole_snoc h.begun (by omega), fun hz => ⟨begun_snoc h.begun hne (by omega), ?_⟩⟩
      rw [lacks_snoc hne, hleft]
  by_cases hz : left = 0
  · simp only [if_pos hz]
    refine ⟨⟨?_, trivial, by simp, ?_, ?_⟩, hz.symm⟩
    · intro e he
      rcases List.mem_append.mp he with he | he
      · exact h.whole e he
      · rw [List.mem_singleton.mp he]
        exact hfits.1 hz
    · rw [h.one, List.flatMap_append, List.flatMap_singleton, List.append_nil, List.append_assoc]
    · intro j
      rw [hmany, own_snoc]
      rcases hi with rfl | rfl
      · rw [h.idle_iff.mp rfl]
        by_cases hij : i = j <;> simp [hij]
      · by_cases hij : i = j <;> simp [hij]
  · simp only [if_neg hz]
    refine ⟨⟨h.whole, (hfits.2 hz).1, by simp, ?_, ?_⟩, (hfits.2 hz).2⟩
    · rw [h.one, List.append_assoc]
    · intro j
      rw [hmany]
      rcases hi with rfl | rfl
      · rw [h.idle_iff.mp rfl]
        by_cases hij : i = j <;> simp [hij]
      · by_cases hij : i = j <;> simp [hij]

section Counted

variable {w : Nat} {field : α → BitVec w} {count : BitVec w}

theorem Shares.count_ne (h : Shares (fun a => (field a).toNat) done current part many one)
    (hcount : current.isSome → count.toNat = lacks (fun a => (field a).toNat) part) (hs : current.isSome) : count ≠ 0#w := by
  intro hz
  have hne : part ≠ [] := fun he => by
    rw [h.idle_iff.mpr he] at hs
    cases hs
  have hpos := h.begun.lacks_pos hne
  rw [← hcount hs, hz, BitVec.toNat_ofNat, Nat.zero_mod] at hpos
  exact absurd hpos (Nat.lt_irrefl 0)

/-- The counter after an item: the length field of the first, and one less from then on. -/
def leftAfter (field : α → BitVec w) (current : Option ι) (count : BitVec w) (a : α) : BitVec w :=
  if current = none then field a else count - 1#w

theorem Shares.leftAfter_toNat (h : Shares (fun a => (field a).toNat) done current part many one)
    (hcount : current.isSome → count.toNat = lacks (fun a => (field a).toNat) part) (a : α) :
    (leftAfter field current count a).toNat =
      if current = none then (field a).toNat else lacks (fun a => (field a).toNat) part - 1 := by
  rw [leftAfter]
  split
  · rfl
  · have hs : current.isSome := Option.isSome_iff_ne_none.mpr ‹_›
    rw [← hcount hs]
    exact Counter.toNat_pred (Counter.toNat_pos (h.count_ne hcount hs))

theorem Shares.transfer_counted (h : Shares (fun a => (field a).toNat) done current part many one)
    (hcount : current.isSome → count.toNat = lacks (fun a => (field a).toNat) part)
    (hi : current = none ∨ current = some i) (a : α) :
    let left := leftAfter field current count a
    Shares (fun a => (field a).toNat) (if left = 0#w then done ++ [(i, part ++ [a])] else done)
      (if left = 0#w then none else some i) (if left = 0#w then [] else part ++ [a])
      (fun j => many j ++ if i = j then [a] else []) (one ++ [a]) ∧
      lacks (fun a => (field a).toNat) (if left = 0#w then [] else part ++ [a]) = left.toNat := by
  have hzero : leftAfter field current count a = 0#w ↔ (leftAfter field current count a).toNat = 0 := by
    rw [← BitVec.toNat_inj, BitVec.toNat_ofNat, Nat.zero_mod]
  simp only [hzero]
  exact h.transfer hi (h.leftAfter_toNat hcount a)

end Counted

end Shared

end OpenPiton.Packets
