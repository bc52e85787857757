import Mathlib.Data.Set.Function
import Mathlib.Logic.Function.Basic

namespace OpenPiton

/-- A cache in front of a store that has each block at a place of its own: the block of an entry, whether the store
may lack what was written to it, and its data. -/
structure BlockCache (ε β π α : Type*) where
  block : ε → Option β
  dirty : ε → Bool
  data : ε → α
  store : π → α

namespace BlockCache

variable {ε β π α : Type*}

/-- The cache and the store have a memory: an entry the data of its block, and the store that of a block that is in no
entry or clean. -/
structure Holds (place : β → π) (S : Set β) (mem : β → α) (c : BlockCache ε β π α) : Prop where
  mapped : ∀ {e b}, c.block e = some b → b ∈ S
  unique : ∀ {e e' b}, c.block e = some b → c.block e' = some b → e = e'
  data_eq : ∀ {e b}, c.block e = some b → c.data e = mem b
  clean_eq : ∀ {e b}, c.block e = some b → c.dirty e = false → c.store (place b) = mem b
  store_eq : ∀ {b}, b ∈ S → (∀ e, c.block e ≠ some b) → c.store (place b) = mem b

variable {place : β → π} {S : Set β} {mem : β → α} {c : BlockCache ε β π α} {e : ε} {b : β}

section Entries

variable [DecidableEq ε]

/-- The cache without the block of an entry. -/
def evict (c : BlockCache ε β π α) (e : ε) : BlockCache ε β π α := { c with block := Function.update c.block e none }

theorem evict_block_eq {e' : ε} : (c.evict e).block e' = some b ↔ e' ≠ e ∧ c.block e' = some b := by
  by_cases he : e' = e
  · simp [evict, he]
  · simp [evict, he]

theorem Holds.evict (h : c.Holds place S mem) (hstore : ∀ b, c.block e = some b → c.store (place b) = mem b) :
    (c.evict e).Holds place S mem where
  mapped hb := h.mapped (evict_block_eq.mp hb).2
  unique hb hb' := h.unique (evict_block_eq.mp hb).2 (evict_block_eq.mp hb').2
  data_eq hb := h.data_eq (evict_block_eq.mp hb).2
  clean_eq hb := h.clean_eq (evict_block_eq.mp hb).2
  store_eq := by
    intro b hS hb
    by_cases he : c.block e = some b
    · exact hstore b he
    · refine h.store_eq hS fun e' he' => hb e' (evict_block_eq.mpr ⟨?_, he'⟩)
      rintro rfl
      exact he he'

theorem Holds.fill (h : (c.evict e).Holds place S mem) (v : α) :
    ({ c with data := Function.update c.data e v }.evict e).Holds place S mem where
  mapped hb := h.mapped hb
  unique hb hb' := h.unique hb hb'
  data_eq := by
    intro e' b hb
    change Function.update c.data e v e' = mem b
    rw [Function.update_of_ne (evict_block_eq.mp hb).1]
    exact h.data_eq hb
  clean_eq hb hd := h.clean_eq hb hd
  store_eq hS hb := h.store_eq hS hb

theorem Holds.install (h : (c.evict e).Holds place S mem) (hS : b ∈ S) (hb : ∀ e', c.block e' ≠ some b)
    (hdata : c.data e = mem b) (d : Bool) :
    { c with block := Function.update c.block e (some b), dirty := Function.update c.dirty e d }.Holds place S mem := by
  have hother {e' : ε} {b' : β} (hb' : Function.update c.block e (some b) e' = some b') (hne : e' ≠ e) :
      (c.evict e).block e' = some b' := by
    rw [Function.update_of_ne hne] at hb'
    exact evict_block_eq.mpr ⟨hne, hb'⟩
  have hself {b' : β} (hb' : Function.update c.block e (some b) e = some b') : b' = b := by
    rw [Function.update_self] at hb'
    exact (Option.some.inj hb').symm
  have hnew {e' : ε} (hb' : Function.update c.block e (some b) e' = some b) : e' = e := by
    by_contra hne
    exact hb e' (evict_block_eq.mp (hother hb' hne)).2
  refine ⟨?_, ?_, ?_, ?_, ?_⟩
  · intro e' b' hb'
    by_cases hne : e' = e
    · subst hne
      exact hself hb' ▸ hS
    · exact h.mapped (hother hb' hne)
  · intro e₁ e₂ b' h₁ h₂
    by_cases hne : e₁ = e
    · subst hne
      obtain rfl := hself h₁
      exact (hnew h₂).symm
    · by_cases hne' : e₂ = e
      · subst hne'
        obtain rfl := hself h₂
        exact hnew h₁
      · exact h.unique (hother h₁ hne) (hother h₂ hne')
  · intro e' b' hb'
    by_cases hne : e' = e
    · subst hne
      rw [hself hb']
      exact hdata
    · exact h.data_eq (hother hb' hne)
  · intro e' b' hb' hd
    by_cases hne : e' = e
    · subst hne
      rw [hself hb']
      exact h.store_eq hS fun e' he' => hb e' (evict_block_eq.mp he').2
    · change Function.update c.dirty e d e' = false at hd
      rw [Function.update_of_ne hne] at hd
      exact h.clean_eq (hother hb' hne) hd
  · intro b' hS' hb'
    refine h.store_eq hS' fun e' he' => hb' e' ?_
    change Function.update c.block e (some b) e' = some b'
    rw [Function.update_of_ne (evict_block_eq.mp he').1]
    exact (evict_block_eq.mp he').2

theorem Holds.mark (h : c.Holds place S mem) (d : Bool)
    (hd : d = false → ∀ b, c.block e = some b → c.store (place b) = mem b) :
    { c with dirty := Function.update c.dirty e d }.Holds place S mem where
  mapped hb := h.mapped hb
  unique hb hb' := h.unique hb hb'
  data_eq hb := h.data_eq hb
  clean_eq := by
    intro e' b hb hd'
    change Function.update c.dirty e d e' = false at hd'
    by_cases he : e' = e
    · subst he
      rw [Function.update_self] at hd'
      exact hd hd' b hb
    · rw [Function.update_of_ne he] at hd'
      exact h.clean_eq hb hd'
  store_eq hS hb := h.store_eq hS hb

theorem Holds.write [DecidableEq β] (h : c.Holds place S mem) (hb : c.block e = some b) (hd : c.dirty e = true) (v : α) :
    { c with data := Function.update c.data e v }.Holds place S (Function.update mem b v) where
  mapped hb := h.mapped hb
  unique hb hb' := h.unique hb hb'
  data_eq := by
    intro e' b' hb'
    change Function.update c.data e v e' = Function.update mem b v b'
    by_cases he : e' = e
    · subst he
      obtain rfl : b = b' := Option.some.inj (hb.symm.trans hb')
      rw [Function.update_self, Function.update_self]
    · have hne : b' ≠ b := by
        rintro rfl
        exact he (h.unique hb' hb)
      rw [Function.update_of_ne he, Function.update_of_ne hne]
      exact h.data_eq hb'
  clean_eq := by
    intro e' b' hb' hd'
    rw [Function.update_of_ne]
    · exact h.clean_eq hb' hd'
    · rintro rfl
      obtain rfl := h.unique hb hb'
      exact Bool.false_ne_true (hd'.symm.trans hd)
  store_eq := by
    intro b' hS hb'
    rw [Function.update_of_ne]
    · exact h.store_eq hS hb'
    · rintro rfl
      exact hb' e hb

end Entries

theorem Holds.spoil [DecidableEq π] (h : c.Holds place S mem) (hinj : Set.InjOn place S) (hb : c.block e = some b)
    (hd : c.dirty e = true) (v : α) : { c with store := Function.update c.store (place b) v }.Holds place S mem where
  mapped hb := h.mapped hb
  unique hb hb' := h.unique hb hb'
  data_eq hb := h.data_eq hb
  clean_eq := by
    intro e' b' hb' hd'
    change Function.update c.store (place b) v (place b') = mem b'
    rw [Function.update_of_ne]
    · exact h.clean_eq hb' hd'
    · intro hp
      obtain rfl := hinj (h.mapped hb') (h.mapped hb) hp
      obtain rfl := h.unique hb hb'
      exact Bool.false_ne_true (hd'.symm.trans hd)
  store_eq := by
    intro b' hS hb'
    change Function.update c.store (place b) v (place b') = mem b'
    rw [Function.update_of_ne]
    · exact h.store_eq hS hb'
    · intro hp
      obtain rfl := hinj hS (h.mapped hb) hp
      exact hb' e hb

end BlockCache

end OpenPiton
