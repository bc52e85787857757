import Mathlib.Algebra.Group.Nat.Defs
import Mathlib.Logic.Function.Basic
import Mathlib.Tactic.SplitIfs

namespace OpenPiton.Home

def hmcEntries : Nat := 16

/-- The fields of a 16-bit HMC address: a home map table line of four homes, and the home in it. -/
def hmcTag (address : Nat) : Nat := address / 4 % 2 ^ 14

def hmcOffset (address : Nat) : Nat := address % 4

def hmcIndex (address : Nat) : Nat := address / 4 % hmcEntries

def hmcSdid (tag : Nat) : Nat := tag / 16

/-- A line of the home map table, four words of 32 bits. -/
abbrev HmtLine := Nat → BitVec 32

def wordValid (w : BitVec 32) : Bool := w.getLsbD 31

def wordData (w : BitVec 32) : BitVec 30 := w.extractLsb' 0 30

structure HmcEntry where
  tag : Nat := 0
  valid : Nat → Bool := fun _ => false
  data : Nat → BitVec 30 := fun _ => 0

namespace HmcEntry

def anyValid (e : HmcEntry) : Bool := (List.range 4).any e.valid

end HmcEntry

/-- The home map cache. -/
structure Hmc where
  used : Nat → Bool := fun _ => false
  locked : Nat → Bool := fun _ => false
  entry : Nat → HmcEntry := fun _ => {}

/-- The request of a cycle; the read and the write port have one address and one diagnostic enable. -/
structure HmcIn where
  rd : Bool := false
  wr : Bool := false
  diag : Bool := false
  flush : Bool := false
  addrOp : Nat := 0
  address : Nat := 0
  data : HmtLine := fun _ => 0

namespace Hmc

variable (h : Hmc) (i : HmcIn)

/-- `l15_priority_encoder`: the lowest bit set, all ones when none is. -/
def priorityEncoder (p : Nat → Bool) : Nat := ((List.range hmcEntries).find? p).getD (hmcEntries - 1)

def tagCmp (address k : Nat) : Bool := (h.entry k).tag == hmcTag address && (h.entry k).valid (hmcOffset address)

def tagWrCmp (address k : Nat) : Bool := (h.entry k).tag == hmcTag address && (h.entry k).anyValid

def hit : Bool := i.rd && !i.diag && (List.range hmcEntries).any (h.tagCmp i.address)

def hitIndex : Nat :=
  if i.rd && i.diag then hmcIndex i.address
  else if i.rd then priorityEncoder (h.tagCmp i.address) else 0

def wrHit : Bool :=
  (i.wr || i.flush && i.addrOp == 1) && (List.range hmcEntries).any (h.tagWrCmp i.address)

def replaceIndex : Nat := ((List.range hmcEntries).find? fun k => !h.used k && !h.locked k).getD 0

def wrIndex : Nat :=
  if i.wr && i.diag then hmcIndex i.address
  else if (i.flush || i.wr) && h.wrHit i then priorityEncoder (h.tagWrCmp i.address)
  else h.replaceIndex

def dataOut : BitVec 30 := (h.entry (h.hitIndex i)).data (hmcOffset i.address)

/-- What a fill puts into an entry. -/
def fillEntry : HmcEntry where
  tag := hmcTag i.address
  valid k := wordValid (i.data k)
  data k := wordData (i.data k)

def lockedNext : Nat → Bool :=
  let fill := i.wr && !i.diag
  let l := if fill then Function.update h.locked (h.wrIndex i) (fillEntry i).anyValid else h.locked
  if i.rd && !i.diag && h.hit i && h.locked (h.hitIndex i) && !(fill && h.wrIndex i == h.hitIndex i) then
    Function.update l (h.hitIndex i) false
  else l

def usedNext : Nat → Bool :=
  let fill := i.wr && !i.diag
  let u := if fill then Function.update h.used (h.wrIndex i) (fillEntry i).anyValid else h.used
  let u := if i.rd && !i.diag && h.hit i && !(fill && h.wrIndex i == h.hitIndex i) then
      Function.update u (h.hitIndex i) true
    else u
  if (List.range hmcEntries).all u then fun _ => false else u

def entryNext : Nat → HmcEntry :=
  if i.flush then
    match i.addrOp with
    | 0 => fun k => { h.entry k with valid := fun _ => false }
    | 1 =>
        if h.wrHit i then
          Function.update h.entry (h.wrIndex i)
            { h.entry (h.wrIndex i) with
              valid := Function.update (h.entry (h.wrIndex i)).valid (hmcOffset i.address) false }
        else h.entry
    | 2 => fun k =>
        if hmcSdid (h.entry k).tag == hmcSdid (hmcTag i.address) && (h.entry k).anyValid then
          { h.entry k with valid := fun _ => false }
        else h.entry k
    | _ => h.entry
  else if i.wr then
    if i.diag then
      let e := h.entry (h.wrIndex i)
      match i.addrOp with
      | 0 => Function.update h.entry (h.wrIndex i)
          { e with data := Function.update e.data (hmcOffset i.address) (wordData (i.data 0)) }
      | 1 => Function.update h.entry (h.wrIndex i) { e with valid := fun k => (i.data 0).getLsbD k }
      | 2 => Function.update h.entry (h.wrIndex i) { e with tag := (i.data 0).toNat % 2 ^ 14 }
      | _ => h.entry
    else Function.update h.entry (h.wrIndex i) (fillEntry i)
  else h.entry

def step : Hmc where
  used := h.usedNext i
  locked := h.lockedNext i
  entry := h.entryNext i

/-- An entry has the line of an address. -/
def Holds (address : Nat) (line : HmtLine) : Prop :=
  ∃ k < hmcEntries, h.entry k = fillEntry { address := address, data := line }

theorem priorityEncoder_lt (p : Nat → Bool) : priorityEncoder p < hmcEntries := by
  rw [priorityEncoder]
  cases hf : (List.range hmcEntries).find? p with
  | none => decide
  | some k => exact List.mem_range.mp (List.mem_of_find?_eq_some hf)

theorem replaceIndex_lt : h.replaceIndex < hmcEntries := by
  rw [replaceIndex]
  cases hf : (List.range hmcEntries).find? (fun k => !h.used k && !h.locked k) with
  | none => decide
  | some k => exact List.mem_range.mp (List.mem_of_find?_eq_some hf)

theorem wrIndex_lt : h.wrIndex i < hmcEntries := by
  rw [wrIndex]
  split_ifs
  · exact Nat.mod_lt _ (by decide)
  · exact priorityEncoder_lt _
  · exact h.replaceIndex_lt

theorem holds_step (hw : i.wr = true) (hd : i.diag = false) (hf : i.flush = false) :
    (h.step i).Holds i.address i.data := by
  refine ⟨h.wrIndex i, h.wrIndex_lt i, ?_⟩
  simp [step, entryNext, hw, hd, hf, fillEntry]

theorem priorityEncoder_spec {p : Nat → Bool} (hp : (List.range hmcEntries).any p = true) :
    p (priorityEncoder p) = true := by
  obtain ⟨k, hk, hpk⟩ := List.any_eq_true.mp hp
  rw [priorityEncoder]
  cases hf : (List.range hmcEntries).find? p with
  | none => exact absurd hpk (by simpa using List.find?_eq_none.mp hf k hk)
  | some k' => exact List.find?_some hf

/-! ## The table behind the cache -/

/-- The homes the cache holds are those of the home map table, which goes by tag. -/
def Agrees (table : Nat → HmtLine) : Prop :=
  ∀ k, ∀ j < 4, (h.entry k).valid j = true → (h.entry k).data j = wordData (table (h.entry k).tag j)

variable {h i} {table : Nat → HmtLine}

theorem entryNext_of_flush (hf : i.flush = true) (k : Nat) :
    (h.entryNext i k).tag = (h.entry k).tag ∧ (h.entryNext i k).data = (h.entry k).data ∧
      ∀ j, (h.entryNext i k).valid j = true → (h.entry k).valid j = true := by
  simp only [entryNext, hf, if_true]
  rcases hop : i.addrOp with _ | _ | _ | n
  · exact ⟨rfl, rfl, nofun⟩
  · simp only
    split_ifs with hw
    · by_cases hk : k = h.wrIndex i
      · subst hk
        rw [Function.update_self]
        refine ⟨rfl, rfl, fun j hv => ?_⟩
        by_cases hj : j = hmcOffset i.address
        · simp [hj] at hv
        · simpa [Function.update_of_ne hj] using hv
      · rw [Function.update_of_ne hk]
        exact ⟨rfl, rfl, fun j hv => hv⟩
    · exact ⟨rfl, rfl, fun j hv => hv⟩
  · simp only
    split_ifs
    · exact ⟨rfl, rfl, nofun⟩
    · exact ⟨rfl, rfl, fun j hv => hv⟩
  · exact ⟨rfl, rfl, fun j hv => hv⟩

theorem Agrees.step (ha : h.Agrees table) (hdiag : i.wr = true → i.diag = false)
    (hfill : i.wr = true → i.flush = false → ∀ j < 4, i.data j = table (hmcTag i.address) j) :
    (h.step i).Agrees table := by
  intro k j hj hv
  change (h.entryNext i k).valid j = true at hv
  change (h.entryNext i k).data j = wordData (table (h.entryNext i k).tag j)
  cases hf : i.flush with
  | true =>
      obtain ⟨htag, hdata, hvalid⟩ := entryNext_of_flush (h := h) hf k
      rw [htag, hdata]
      exact ha k j hj (hvalid j hv)
  | false =>
      simp only [entryNext, hf, Bool.false_eq_true, if_false] at hv ⊢
      cases hw : i.wr with
      | false =>
          simp only [hw, Bool.false_eq_true, if_false] at hv ⊢
          exact ha k j hj hv
      | true =>
          simp only [hw, hdiag hw, Bool.false_eq_true, if_true, if_false] at hv ⊢
          by_cases hk : k = h.wrIndex i
          · subst hk
            rw [Function.update_self]
            exact congrArg wordData (hfill hw hf j hj)
          · rw [Function.update_of_ne hk] at hv ⊢
            exact ha k j hj hv

theorem Agrees.dataOut (ha : h.Agrees table) (hhit : h.hit i = true) :
    h.dataOut i = wordData (table (hmcTag i.address) (hmcOffset i.address)) := by
  simp only [hit, Bool.and_eq_true, Bool.not_eq_true'] at hhit
  obtain ⟨⟨hrd, hdiag⟩, hany⟩ := hhit
  have hindex : h.hitIndex i = priorityEncoder (h.tagCmp i.address) := by simp [hitIndex, hrd, hdiag]
  have hcmp := priorityEncoder_spec hany
  simp only [tagCmp, Bool.and_eq_true, beq_iff_eq] at hcmp
  rw [Hmc.dataOut, hindex, ← hcmp.1]
  exact ha _ _ (Nat.mod_lt _ (by decide)) hcmp.2

end Hmc

end OpenPiton.Home
