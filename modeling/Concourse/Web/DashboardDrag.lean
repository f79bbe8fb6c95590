import Mathlib.Data.List.Nodup
import Concourse.Lib.ListMove

/-!
# Dragging cards on the dashboard

`Dashboard.Drag` reorders a team's cards when one is dropped on another.  `dragCardIndices`
turns the dragged card and its drop target into a pair of indices `(from, to)`, and `drag`
moves the element at `from` so that it lands before the element that was at `to`: forwards it
walks down the list and ends with `insertAt`, backwards it works on the reversed list, where
the move is a forward one.

We show that `drag` is the move of `ListMove` (take the element out, insert it back at
`to - 1`) for every pair of indices in range, that `dragCardIndices` gives indices in that range
and puts the card where it was dropped, and that `reverseIndices` undoes a drag.

A `Card` of the dashboard is a type parameter: `dragCardIndices` reads cards only through
`cardIdentifier`, which is a parameter.
-/

namespace Concourse

namespace Web

namespace Drag

variable {α : Type*}

/-- `Dashboard.Drag.insertAt`: insert `x` before the element at `idx`, or at the end when `idx`
is past it. -/
def insertAt (idx : Int) (x : α) (xs : List α) : List α :=
  match decide (idx > 0), xs with
  | true, head :: tail => head :: insertAt (idx - 1) x tail
  | _, _ => x :: xs

/-- `Dashboard.Drag.drag`. -/
def drag (fromIdx toIdx : Int) (xs : List α) : List α :=
  if fromIdx ≥ toIdx then
    let n : Int := xs.length
    (drag (n - fromIdx - 1) (n - toIdx + 1) xs.reverse).reverse
  else
    match xs with
    | [] => []
    | head :: tail =>
      if fromIdx == 0 then insertAt (toIdx - 1) head tail
      else head :: drag (fromIdx - 1) (toIdx - 1) tail
-- a backward move recurses once on the reversed list, where it is a forward one
termination_by 2 * xs.length + if toIdx ≤ fromIdx then 1 else 0
decreasing_by
  · simp only [List.unattach_reverse, List.unattach_attach, List.length_reverse]
    split <;> omega
  · simp only [List.length_cons]
    split <;> omega

/-- `Dashboard.Drag.reverseIndices`: the indices of the drag that undoes `(from, to)`. -/
def reverseIndices (length : Int) : Int × Int → Int × Int
  | (fromIdx, toIdx) => (max 0 (toIdx - 1), min length (fromIdx + 1))

/-! ## `insertAt` and `drag` as list moves -/

theorem insertAt_cons_of_pos {idx : Int} (x head : α) (tail : List α) (h : 0 < idx) :
    insertAt idx x (head :: tail) = head :: insertAt (idx - 1) x tail := by
  rw [insertAt]
  exact decide_eq_true h

theorem insertAt_zero (x : α) (xs : List α) : insertAt 0 x xs = x :: xs := by
  cases xs <;> rfl

theorem insertAt_eq_insertIdx (x : α) :
    ∀ (xs : List α) (idx : Int), 0 ≤ idx → idx ≤ xs.length →
      insertAt idx x xs = xs.insertIdx idx.toNat x
  | [], idx, h0, h1 => by
    obtain rfl : idx = 0 := by simp at h1; omega
    rfl
  | head :: tail, idx, h0, h1 => by
    rcases Int.lt_or_eq_of_le h0 with hpos | rfl
    · -- past the head: one step of the recursion, and one of `insertIdx`
      have hidx : idx.toNat = (idx - 1).toNat + 1 := by omega
      rw [insertAt_cons_of_pos x head tail hpos, hidx, List.insertIdx_succ_cons,
        insertAt_eq_insertIdx x tail (idx - 1) (by omega) (by simp at h1; omega)]
    · exact insertAt_zero x _

theorem drag_of_le {fromIdx toIdx : Int} (xs : List α) (h : toIdx ≤ fromIdx) :
    drag fromIdx toIdx xs =
      (drag (xs.length - fromIdx - 1) (xs.length - toIdx + 1) xs.reverse).reverse := by
  rw [drag.eq_def]; simp [h]

theorem drag_cons_zero {toIdx : Int} (x : α) (xs : List α) (h : 0 < toIdx) :
    drag 0 toIdx (x :: xs) = insertAt (toIdx - 1) x xs := by
  rw [drag.eq_def]; simp [Int.not_le.mpr h]

theorem drag_cons_of_lt {fromIdx toIdx : Int} (x : α) (xs : List α) (h : fromIdx < toIdx)
    (h0 : fromIdx ≠ 0) :
    drag fromIdx toIdx (x :: xs) = x :: drag (fromIdx - 1) (toIdx - 1) xs := by
  rw [drag.eq_def]; simp [Int.not_le.mpr h, h0]

/-- A forward drag is a move: induction on the list, one step of `drag` per head it walks
past. -/
theorem drag_eq_move_of_lt :
    ∀ (xs : List α) (fromIdx toIdx : Int), 0 ≤ fromIdx → fromIdx < toIdx → toIdx ≤ xs.length →
      drag fromIdx toIdx xs = ListMove.move xs fromIdx.toNat (toIdx - 1).toNat
  | [], fromIdx, toIdx, h0, h1, h2 => by simp at h2; omega
  | x :: xs, fromIdx, toIdx, h0, h1, h2 => by
    simp only [List.length_cons] at h2
    rcases Int.lt_or_eq_of_le h0 with hpos | rfl
    · have hfrom : fromIdx.toNat = (fromIdx - 1).toNat + 1 := by omega
      have hto : (toIdx - 1).toNat = (toIdx - 1 - 1).toNat + 1 := by omega
      rw [drag_cons_of_lt x xs h1 (by omega), hfrom, hto, ListMove.move_cons_succ,
        drag_eq_move_of_lt xs (fromIdx - 1) (toIdx - 1) (by omega) (by omega) (by omega)]
    · rw [drag_cons_zero x xs h1, insertAt_eq_insertIdx x xs _ (by omega) (by omega)]
      rfl

/-- Every drag with `0 ≤ from < n` and `1 ≤ to ≤ n` takes the element at `from` out and
inserts it back at `to - 1`.  A backward drag is the mirrored forward move on the reversed
list (`ListMove.reverse_move`). -/
theorem drag_eq_move {xs : List α} {fromIdx toIdx : Int} (h0 : 0 ≤ fromIdx)
    (h1 : fromIdx < xs.length) (h2 : 1 ≤ toIdx) (h3 : toIdx ≤ xs.length) :
    drag fromIdx toIdx xs = ListMove.move xs fromIdx.toNat (toIdx - 1).toNat := by
  rcases Int.lt_or_le fromIdx toIdx with hlt | hle
  · exact drag_eq_move_of_lt xs fromIdx toIdx h0 hlt h3
  · have hrev := drag_eq_move_of_lt xs.reverse (xs.length - fromIdx - 1) (xs.length - toIdx + 1)
      (by omega) (by omega) (by simp; omega)
    have hmirror := @ListMove.reverse_move _ xs.reverse
      (xs.length - fromIdx - 1 : Int).toNat (xs.length - toIdx + 1 - 1 : Int).toNat
      (by simp; omega) (by simp; omega)
    rw [List.reverse_reverse, List.length_reverse] at hmirror
    rw [drag_of_le xs hle, hrev, hmirror]
    congr 1 <;> omega

-- the repository's own tests of `drag`; the last two lie outside the range above, where the
-- forward walk ends in `insertAt`'s append and the backward one starts past the end
example : drag 0 2 ['a', 'b'] = ['b', 'a'] := by decide +kernel
example : drag 1 4 ['a', 'b', 'c'] = ['a', 'c', 'b'] := by decide +kernel
example : drag 1 0 ['a', 'b'] = ['b', 'a'] := by decide +kernel

/-- `reverseIndices` undoes a drag whose indices are in range. -/
theorem drag_reverseIndices {xs : List α} {fromIdx toIdx : Int} (h0 : 0 ≤ fromIdx)
    (h1 : fromIdx < xs.length) (h2 : 1 ≤ toIdx) (h3 : toIdx ≤ xs.length) :
    drag (reverseIndices xs.length (fromIdx, toIdx)).1 (reverseIndices xs.length (fromIdx, toIdx)).2
      (drag fromIdx toIdx xs) = xs := by
  have hlen : (drag fromIdx toIdx xs).length = xs.length := by
    rw [drag_eq_move h0 h1 h2 h3, ListMove.length_move (by omega)]
  simp only [reverseIndices]
  rw [drag_eq_move (by omega) (by omega) (by omega) (by omega), drag_eq_move h0 h1 h2 h3]
  have hto : (max 0 (toIdx - 1)).toNat = (toIdx - 1).toNat := by omega
  have hfrom : (min (xs.length : Int) (fromIdx + 1) - 1).toNat = fromIdx.toNat := by omega
  rw [hto, hfrom]
  exact ListMove.move_move (by omega) (by omega)

/-! ## Dropping a card -/

/-- `Message.Message.DropTarget`: where a dragged card is dropped. -/
inductive DropTarget (α : Type*) where
  /-- `Before card`: just before the given card. -/
  | before (card : α)
  /-- `End`: after the last card. -/
  | atEnd
  deriving DecidableEq, Repr

/-- `List.Extra.findIndex`: the index of the first element that satisfies `p`. -/
def findIndex (p : α → Bool) (xs : List α) : Option Int :=
  (xs.findIdx? p).map Int.ofNat

section Cards

variable (cardIdentifier : α → String)

/-- `Dashboard.Drag.dragCardIndices`: the indices of the drag that drops `card` on `target`;
a card is found by its identifier. -/
def dragCardIndices (card : α) (target : DropTarget α) (cards : List α) : Option (Int × Int) :=
  let cardIndex := fun c => findIndex (fun c' => cardIdentifier c == cardIdentifier c') cards
  let fromIndex := cardIndex card
  fromIndex.bind fun fromIdx =>
    let toIndex :=
      match target with
      | .before id =>
        (cardIndex id).map fun targetIdx => if fromIdx < targetIdx then targetIdx else targetIdx + 1
      | .atEnd => some (cards.length : Int)
    toIndex.map (Prod.mk fromIdx)

/-- Where a drop on `target` is meant to leave `card` of `cards` in the reordered list `ys`:
immediately before the card with the target's identifier, last, or, dropped on a card with its
own identifier, where it was. -/
def DroppedAt (cards : List α) (card : α) : DropTarget α → List α → Prop
  | .before t, ys =>
    if cardIdentifier t = cardIdentifier card then ys = cards
    else ∃ v ∈ cards, cardIdentifier v = cardIdentifier t ∧
      ∃ p : Nat, ys[p]? = some card ∧ ys[p + 1]? = some v
  | .atEnd, ys => ys.getLast? = some card

variable {cardIdentifier}

/-- What `findIndex` finds of a card: a position in the list holding its identifier. -/
theorem cardIndex_spec {c : α} {cards : List α} {i : Nat}
    (h : findIndex (fun c' => cardIdentifier c == cardIdentifier c') cards = some (i : Int)) :
    ∃ hi : i < cards.length, cardIdentifier cards[i] = cardIdentifier c := by
  obtain ⟨i', hfind, hii⟩ := Option.map_eq_some_iff.mp h
  obtain rfl : i' = i := Int.ofNat_inj.mp hii
  obtain ⟨hi, hp, -⟩ := List.findIdx?_eq_some_iff_getElem.mp hfind
  exact ⟨hi, (beq_iff_eq.mp hp).symm⟩

/-- Among cards with distinct identifiers, two positions holding one identifier are one. -/
theorem index_eq_of_cardIdentifier {cards : List α} (hnodup : (cards.map cardIdentifier).Nodup)
    {i j : Nat} (hi : i < cards.length) (hj : j < cards.length)
    (h : cardIdentifier cards[i] = cardIdentifier cards[j]) : i = j := by
  have hi' : i < (cards.map cardIdentifier).length := by simpa using hi
  have hj' : j < (cards.map cardIdentifier).length := by simpa using hj
  exact (@List.Nodup.getElem_inj_iff _ _ hnodup i hi' j hj').mp (by simpa using h)

/-- Among cards with distinct identifiers, `findIndex` finds a card at its own position. -/
theorem cardIndex_of_getElem {cards : List α} (hnodup : (cards.map cardIdentifier).Nodup)
    {i : Nat} (hi : i < cards.length) {c : α} (hc : cardIdentifier cards[i] = cardIdentifier c) :
    findIndex (fun c' => cardIdentifier c == cardIdentifier c') cards = some (i : Int) := by
  have hfind : cards.findIdx? (fun c' => cardIdentifier c == cardIdentifier c') = some i := by
    refine List.findIdx?_eq_some_iff_getElem.mpr ⟨hi, by simp [hc], fun j hji => ?_⟩
    -- an earlier card with the same identifier would repeat it in the list of identifiers
    have hne : cardIdentifier cards[j] ≠ cardIdentifier cards[i] := by
      intro heq
      have hji' : j = i := index_eq_of_cardIdentifier hnodup (by omega) hi heq
      omega
    simpa [← hc] using hne.symm
  simp [findIndex, hfind]

/-- Among cards with distinct identifiers, the card that holds a member's identifier is that
member. -/
theorem getElem_eq_of_cardIdentifier {cards : List α} (hnodup : (cards.map cardIdentifier).Nodup)
    {card : α} (hcard : card ∈ cards) {i : Nat} (hi : i < cards.length)
    (hid : cardIdentifier cards[i] = cardIdentifier card) : cards[i] = card := by
  obtain ⟨m, hm, rfl⟩ := List.getElem_of_mem hcard
  obtain rfl : i = m := index_eq_of_cardIdentifier hnodup hi hm hid
  rfl

theorem findIndex_eq_some_natCast {p : α → Bool} {xs : List α} {k : Int}
    (h : findIndex p xs = some k) : ∃ i : Nat, k = i := by
  obtain ⟨i, -, rfl⟩ := Option.map_eq_some_iff.mp h
  exact ⟨i, rfl⟩

/-- What a drop before `u` gives: `from` is where the card's identifier is first found, `to`
where `u`'s is, one further on when the card comes from behind it. -/
theorem dragCardIndices_before_eq_some {card u : α} {cards : List α} {fromIdx toIdx : Int}
    (h : dragCardIndices cardIdentifier card (.before u) cards = some (fromIdx, toIdx)) :
    ∃ i k : Nat, findIndex (fun c' => cardIdentifier card == cardIdentifier c') cards = some (i : Int) ∧
      findIndex (fun c' => cardIdentifier u == cardIdentifier c') cards = some (k : Int) ∧
      fromIdx = i ∧ toIdx = if (i : Int) < k then (k : Int) else k + 1 := by
  simp only [dragCardIndices, Option.bind_eq_some_iff, Option.map_eq_some_iff, Prod.mk.injEq] at h
  obtain ⟨f, hf, t, ⟨k', hk', rfl⟩, rfl, rfl⟩ := h
  obtain ⟨i, rfl⟩ := findIndex_eq_some_natCast hf
  obtain ⟨k, rfl⟩ := findIndex_eq_some_natCast hk'
  exact ⟨i, k, hf, hk', rfl, rfl⟩

/-- What a drop at the end gives: `to` is the number of cards. -/
theorem dragCardIndices_atEnd_eq_some {card : α} {cards : List α} {fromIdx toIdx : Int}
    (h : dragCardIndices cardIdentifier card .atEnd cards = some (fromIdx, toIdx)) :
    ∃ i : Nat, findIndex (fun c' => cardIdentifier card == cardIdentifier c') cards = some (i : Int) ∧
      fromIdx = i ∧ toIdx = cards.length := by
  simp only [dragCardIndices, Option.bind_eq_some_iff, Option.map_eq_some_iff, Prod.mk.injEq] at h
  obtain ⟨f, hf, t, ht, rfl, rfl⟩ := h
  obtain rfl := Option.some.inj ht
  obtain ⟨i, rfl⟩ := findIndex_eq_some_natCast hf
  exact ⟨i, hf, rfl, rfl⟩

/-- `dragCardIndices` gives a drag whose indices are in range: `0 ≤ from < n` and
`1 ≤ to ≤ n`. -/
theorem dragCardIndices_bounds {card : α} {target : DropTarget α} {cards : List α}
    {fromIdx toIdx : Int}
    (h : dragCardIndices cardIdentifier card target cards = some (fromIdx, toIdx)) :
    0 ≤ fromIdx ∧ fromIdx < cards.length ∧ 1 ≤ toIdx ∧ toIdx ≤ cards.length := by
  cases target with
  | before u =>
    obtain ⟨i, k, hi, hk, rfl, rfl⟩ := dragCardIndices_before_eq_some h
    obtain ⟨hi_lt, -⟩ := cardIndex_spec hi
    obtain ⟨hk_lt, -⟩ := cardIndex_spec hk
    split <;> omega
  | atEnd =>
    obtain ⟨i, hi, rfl, rfl⟩ := dragCardIndices_atEnd_eq_some h
    obtain ⟨hi_lt, -⟩ := cardIndex_spec hi
    omega

/-! ## Where the dropped card lands -/

/-- Dropped on a card with its own identifier, the card stays where it is. -/
theorem drag_dragCardIndices_before_self {card u : α} {cards : List α} {fromIdx toIdx : Int}
    (hid : cardIdentifier u = cardIdentifier card)
    (h : dragCardIndices cardIdentifier card (.before u) cards = some (fromIdx, toIdx)) :
    drag fromIdx toIdx cards = cards := by
  obtain ⟨h0, h1, h2, h3⟩ := dragCardIndices_bounds h
  obtain ⟨i, k, hi, hk, rfl, rfl⟩ := dragCardIndices_before_eq_some h
  -- both indices come from the same search
  obtain rfl : k = i := by
    rw [hid, hi] at hk
    exact (Int.ofNat_inj.mp (Option.some.inj hk)).symm
  rw [drag_eq_move h0 h1 h2 h3, if_neg (Int.lt_irrefl _), Int.add_sub_cancel, Int.toNat_natCast]
  exact ListMove.move_self (by omega)

/-- Dropped before another card, the card lands immediately before the card with that one's
identifier. -/
theorem drag_dragCardIndices_before {card u : α} {cards : List α} {fromIdx toIdx : Int}
    (hnodup : (cards.map cardIdentifier).Nodup) (hcard : card ∈ cards)
    (hid : cardIdentifier u ≠ cardIdentifier card)
    (h : dragCardIndices cardIdentifier card (.before u) cards = some (fromIdx, toIdx)) :
    ∃ v ∈ cards, cardIdentifier v = cardIdentifier u ∧
      ∃ p : Nat, (drag fromIdx toIdx cards)[p]? = some card ∧
        (drag fromIdx toIdx cards)[p + 1]? = some v := by
  obtain ⟨h0, h1, h2, h3⟩ := dragCardIndices_bounds h
  obtain ⟨i, k, hi, hk, rfl, rfl⟩ := dragCardIndices_before_eq_some h
  obtain ⟨hi_lt, hi_id⟩ := cardIndex_spec hi
  obtain ⟨hk_lt, hk_id⟩ := cardIndex_spec hk
  have hcard_i : cards[i] = card := getElem_eq_of_cardIdentifier hnodup hcard hi_lt hi_id
  have hki : k ≠ i := by
    rintro rfl
    exact hid (hk_id.symm.trans hi_id)
  refine ⟨cards[k], List.getElem_mem hk_lt, hk_id, ?_⟩
  rw [drag_eq_move h0 h1 h2 h3, Int.toNat_natCast]
  rcases Nat.lt_or_gt_of_ne hki with hlt | hgt
  · -- from behind the target: it goes to the target's old place, the target one back
    rw [if_neg (by omega)]
    have hto : ((k : Int) + 1 - 1).toNat = k := by omega
    refine ⟨k, ?_, ?_⟩
    · rw [hto, ListMove.getElem?_move_self (by omega) hk_lt, hcard_i]
    · rw [hto, ListMove.getElem?_move_of_gt (by omega) (by omega), Nat.add_sub_cancel,
        List.getElem?_eraseIdx_of_lt hlt, List.getElem?_eq_getElem hk_lt]
  · -- from in front of the target: it goes just before it, the target stays put
    rw [if_pos (by omega)]
    have hto : ((k : Int) - 1).toNat = k - 1 := by omega
    refine ⟨k - 1, ?_, ?_⟩
    · rw [hto, ListMove.getElem?_move_self (by omega) (by omega), hcard_i]
    · rw [hto, Nat.sub_add_cancel (by omega : 1 ≤ k), ListMove.getElem?_move_of_gt (by omega) (by omega),
        List.getElem?_eraseIdx_of_ge (by omega), Nat.sub_add_cancel (by omega : 1 ≤ k),
        List.getElem?_eq_getElem hk_lt]

/-- Dropped at the end, the card is last. -/
theorem drag_dragCardIndices_atEnd {card : α} {cards : List α} {fromIdx toIdx : Int}
    (hnodup : (cards.map cardIdentifier).Nodup) (hcard : card ∈ cards)
    (h : dragCardIndices cardIdentifier card .atEnd cards = some (fromIdx, toIdx)) :
    (drag fromIdx toIdx cards).getLast? = some card := by
  obtain ⟨h0, h1, h2, h3⟩ := dragCardIndices_bounds h
  obtain ⟨i, hi, rfl, rfl⟩ := dragCardIndices_atEnd_eq_some h
  obtain ⟨hi_lt, hi_id⟩ := cardIndex_spec hi
  have hlast : ((cards.length : Int) - 1).toNat = cards.length - 1 := by omega
  rw [drag_eq_move h0 h1 h2 h3, Int.toNat_natCast, List.getLast?_eq_getElem?,
    ListMove.length_move (by omega), hlast, ListMove.getElem?_move_self (by omega) (by omega),
    getElem_eq_of_cardIdentifier hnodup hcard hi_lt hi_id]

theorem droppedAt_drag_dragCardIndices {card : α} {target : DropTarget α} {cards : List α}
    {fromIdx toIdx : Int} (hnodup : (cards.map cardIdentifier).Nodup) (hcard : card ∈ cards)
    (h : dragCardIndices cardIdentifier card target cards = some (fromIdx, toIdx)) :
    DroppedAt cardIdentifier cards card target (drag fromIdx toIdx cards) := by
  cases target with
  | before u =>
    simp only [DroppedAt]
    split
    · exact drag_dragCardIndices_before_self ‹_› h
    · exact drag_dragCardIndices_before hnodup hcard ‹_› h
  | atEnd => exact drag_dragCardIndices_atEnd hnodup hcard h

/-- The dashboard's drag and drop: `drag` takes the element at `from` out and re-inserts it at
`to - 1`, keeping the others in order; the indices `dragCardIndices` computes put the card where
it was dropped; and `reverseIndices` gives the drag that undoes it. -/
theorem drag_correct_invertible :
    (∀ (xs : List α) (fromIdx toIdx : Int) (h0 : 0 ≤ fromIdx) (h1 : fromIdx < xs.length),
      1 ≤ toIdx → toIdx ≤ xs.length →
        drag fromIdx toIdx xs =
            (xs.eraseIdx fromIdx.toNat).insertIdx (toIdx - 1).toNat xs[fromIdx.toNat] ∧
          (drag fromIdx toIdx xs).Perm xs ∧
          (drag fromIdx toIdx xs).eraseIdx (toIdx - 1).toNat = xs.eraseIdx fromIdx.toNat) ∧
    (∀ (cards : List α) (card : α) (target : DropTarget α) (fromIdx toIdx : Int),
      (cards.map cardIdentifier).Nodup → card ∈ cards →
      dragCardIndices cardIdentifier card target cards = some (fromIdx, toIdx) →
        DroppedAt cardIdentifier cards card target (drag fromIdx toIdx cards)) ∧
    (∀ (cards : List α) (card : α) (target : DropTarget α) (fromIdx toIdx : Int),
      dragCardIndices cardIdentifier card target cards = some (fromIdx, toIdx) →
        drag (reverseIndices cards.length (fromIdx, toIdx)).1
          (reverseIndices cards.length (fromIdx, toIdx)).2 (drag fromIdx toIdx cards) = cards) := by
  refine ⟨?move, ?drop, ?undo⟩
  case move =>
    intro xs fromIdx toIdx h0 h1 h2 h3
    have hi : fromIdx.toNat < xs.length := by omega
    rw [drag_eq_move h0 h1 h2 h3]
    exact ⟨ListMove.move_of_lt _ hi, ListMove.move_perm hi (by omega),
      ListMove.eraseIdx_move _ hi⟩
  case drop =>
    intro cards card target fromIdx toIdx hnodup hcard h
    exact droppedAt_drag_dragCardIndices hnodup hcard h
  case undo =>
    intro cards card target fromIdx toIdx h
    obtain ⟨h0, h1, h2, h3⟩ := dragCardIndices_bounds h
    exact drag_reverseIndices h0 h1 h2 h3

/-- The first of three pipeline cards dropped at the end, and dragged back. -/
theorem drag_correct_invertible_atEnd :
    dragCardIndices id "unit" .atEnd ["unit", "e2e", "deploy"] = some (0, 3) ∧
      drag 0 3 ["unit", "e2e", "deploy"] = ["e2e", "deploy", "unit"] ∧
      DroppedAt id ["unit", "e2e", "deploy"] "unit" .atEnd (drag 0 3 ["unit", "e2e", "deploy"]) ∧
      drag (reverseIndices 3 (0, 3)).1 (reverseIndices 3 (0, 3)).2
        (drag 0 3 ["unit", "e2e", "deploy"]) = ["unit", "e2e", "deploy"] := by
  have hidx : dragCardIndices id "unit" .atEnd ["unit", "e2e", "deploy"] = some (0, 3) := by
    decide +kernel
  have h := @drag_correct_invertible String id
  exact ⟨hidx, by decide +kernel, h.2.1 _ _ _ _ _ (by decide) (by simp) hidx, h.2.2 _ _ _ _ _ hidx⟩

end Cards

end Drag

end Web

end Concourse
