import Mathlib.Data.List.Chain

namespace OpenPiton.Framed

variable {α : Type*}

/-- Where an item stands in a stream of packets: the head of its packet, and how many items of the
packet are before it. -/
structure Place (α : Type*) where
  head : α
  pos : Nat
  deriving DecidableEq

variable (len : α → Nat)

/-- How many items of the packet follow; a head says how many follow it. -/
def Place.left (pl : Place α) : Nat := len pl.head - pl.pos

/-- The place of an item behind another: it goes on with the packet, or it is a head. -/
def next (pl : Option (Place α)) (a : α) : Place α :=
  match pl with
  | none => ⟨a, 0⟩
  | some pl => if pl.left len = 0 then ⟨a, 0⟩ else ⟨pl.head, pl.pos + 1⟩

def placesFrom : Option (Place α) → List α → List (α × Place α)
  | _, [] => []
  | pl, a :: l => (a, next len pl a) :: placesFrom (some (next len pl a)) l

/-- The items of a stream with their places. -/
def places (l : List α) : List (α × Place α) := placesFrom len none l

def cursorFrom : Option (Place α) → List α → Option (Place α)
  | pl, [] => pl
  | pl, a :: l => cursorFrom (some (next len pl a)) l

/-- The place of the last item. -/
def cursor (l : List α) : Option (Place α) := cursorFrom len none l

/-- How many items the last packet lacks. -/
def left (l : List α) : Nat := ((cursor len l).map (Place.left len)).getD 0

variable {len} {l l' : List α} {a : α}

theorem cursor_snoc : cursor len (l ++ [a]) = some (next len (cursor len l) a) := by
  suffices h : ∀ pl, cursorFrom len pl (l ++ [a]) = some (next len (cursorFrom len pl l) a) from h none
  induction l with
  | nil => exact fun _ => rfl
  | cons b l ih => exact fun pl => ih _

theorem places_append : ∃ rest, places len (l ++ l') = places len l ++ rest := by
  suffices h : ∀ pl, ∃ rest, placesFrom len pl (l ++ l') = placesFrom len pl l ++ rest from h none
  induction l with
  | nil => exact fun pl => ⟨placesFrom len pl l', rfl⟩
  | cons b l ih =>
      intro pl
      obtain ⟨rest, hrest⟩ := ih (some (next len pl b))
      exact ⟨rest, by rw [List.cons_append, placesFrom, hrest, placesFrom, List.cons_append]⟩

theorem places_snoc : places len (l ++ [a]) = places len l ++ [(a, next len (cursor len l) a)] := by
  suffices h : ∀ pl, placesFrom len pl (l ++ [a]) =
      placesFrom len pl l ++ [(a, next len (cursorFrom len pl l) a)] from h none
  induction l with
  | nil => exact fun _ => rfl
  | cons b l ih =>
      intro pl
      rw [List.cons_append, placesFrom, placesFrom, cursorFrom, ih, List.cons_append]

theorem length_places : (places len l).length = l.length := by
  suffices h : ∀ pl, (placesFrom len pl l).length = l.length from h none
  induction l with
  | nil => exact fun _ => rfl
  | cons b l ih => exact fun pl => congrArg (· + 1) (ih _)

theorem places_fst : (places len l).map Prod.fst = l := by
  suffices h : ∀ pl, (placesFrom len pl l).map Prod.fst = l from h none
  induction l with
  | nil => exact fun _ => rfl
  | cons b l ih => exact fun pl => congrArg (b :: ·) (ih _)

theorem places_getElem? : (places len (l ++ a :: l'))[l.length]? = some (a, next len (cursor len l) a) := by
  obtain ⟨rest, hrest⟩ : ∃ rest, places len (l ++ [a] ++ l') = places len (l ++ [a]) ++ rest := places_append
  rw [List.append_assoc, List.singleton_append, places_snoc] at hrest
  rw [hrest, List.append_assoc, List.getElem?_append_right length_places.le, length_places, Nat.sub_self]
  rfl

/-- A stream stands where its last item does. -/
theorem cursor_eq : cursor len l = (places len l).getLast?.map Prod.snd := by
  induction l using List.reverseRecOn with
  | nil => rfl
  | append_singleton l a ih => rw [cursor_snoc, places_snoc, List.getLast?_concat, Option.map_some]

theorem next_of_idle (h : left len l = 0) : next len (cursor len l) a = ⟨a, 0⟩ := by
  unfold left at h
  unfold next
  cases hc : cursor len l with
  | none => rfl
  | some pl =>
      rw [hc] at h
      exact if_pos h

theorem next_of_busy (h : left len l ≠ 0) :
    ∃ pl, cursor len l = some pl ∧ pl.left len ≠ 0 ∧ next len (cursor len l) a = ⟨pl.head, pl.pos + 1⟩ := by
  unfold left at h
  cases hc : cursor len l with
  | none => simp [hc] at h
  | some pl =>
      have hl : pl.left len ≠ 0 := by simpa [hc] using h
      exact ⟨pl, rfl, hl, by rw [next, if_neg hl]⟩

/-- A head brings its packet's items, another item is one of those that lacked. -/
theorem left_snoc : left len (l ++ [a]) = if left len l = 0 then len a else left len l - 1 := by
  rw [left, cursor_snoc, Option.map_some, Option.getD_some]
  by_cases h : left len l = 0
  · rw [if_pos h, next_of_idle h, Place.left, Nat.sub_zero]
  · obtain ⟨pl, hc, -, hn⟩ := next_of_busy (a := a) h
    rw [if_neg h, hn, left, hc, Option.map_some, Option.getD_some]
    change len pl.head - (pl.pos + 1) = len pl.head - pl.pos - 1
    omega

theorem mem_places_head {x : α × Place α} (h : x ∈ places len l) : x.2.pos = 0 → x.2.head = x.1 := by
  suffices hall : ∀ pl, x ∈ placesFrom len pl l → x.2.pos = 0 → x.2.head = x.1 from hall none h
  clear h
  induction l with
  | nil =>
      intro pl hx
      cases hx
  | cons a l ih =>
      intro pl hx hpos
      rcases List.mem_cons.mp hx with rfl | hx
      · cases pl with
        | none => rfl
        | some pl =>
            dsimp only [next] at hpos ⊢
            split at hpos
            next hl => rw [if_pos hl]
            next => cases hpos
      · exact ih _ hx hpos

/-- Items with places that go on from one to the next are a stream with its places. -/
theorem places_of_chain {l : List (α × Place α)}
    (hchain : l.IsChain fun x y =>
      if x.2.left len = 0 then y.2.pos = 0 else y.2 = ⟨x.2.head, x.2.pos + 1⟩)
    (hfirst : ∀ x ∈ l.head?, x.2.pos = 0) (hitem : ∀ x ∈ l, x.2.pos = 0 → x.2.head = x.1) :
    places len (l.map Prod.fst) = l := by
  have hplace : ∀ x : α × Place α, x.2.pos = 0 → x.2.head = x.1 → x.2 = ⟨x.1, 0⟩ := by
    rintro ⟨a, h, n⟩ hpos hhead
    cases hpos
    cases hhead
    rfl
  suffices hfrom : ∀ pl, (∀ x ∈ l.head?, x.2 = next len pl x.1) → placesFrom len pl (l.map Prod.fst) = l by
    apply hfrom none
    intro x hx
    exact hplace x (hfirst x hx) (hitem x (List.mem_of_mem_head? hx) (hfirst x hx))
  clear hfirst
  induction l with
  | nil => exact fun _ _ => rfl
  | cons x l ih =>
      intro pl hpl
      have hx : x.2 = next len pl x.1 := hpl x rfl
      rw [List.map_cons, placesFrom, ← hx]
      refine congrArg (x :: ·) (ih (List.isChain_cons.mp hchain).2 (fun y hy => hitem y (List.mem_cons_of_mem x hy))
        (some x.2) fun y hy => ?_)
      have hfollow := (List.isChain_cons.mp hchain).1 y hy
      rw [next]
      split at hfollow
      next hl =>
        rw [if_pos hl]
        exact hplace y hfollow (hitem y (List.mem_cons_of_mem x (List.mem_of_mem_head? hy)) hfollow)
      next hl => rw [if_neg hl, hfollow]

end OpenPiton.Framed
