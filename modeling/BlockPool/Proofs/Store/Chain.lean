import BlockPool.Proofs.Store.Nodes

/-!
# BlockPool — chains as sequences

A chain holds its two ends and a length; the order of its slots is in the links of the nodes. Here a
chain is tied to the list of slots that it stands for, and its operations to what they do to that
list. Where several chains run through one slab, each slot is in the chain that it belongs to and in
no other, so an operation on one chain leaves the others alone.

* `Nodes.Strung` — slots that are linked one after the other.
* `Chain.Spells` — the list of slots that a chain stands for.
* `Chain.Spells.pushFront`, `Chain.Spells.pushBack` — one slot comes in front, or behind.
* `Chain.Spells.unlink` — one slot goes.
* `Chain.Files` — chains over one slab, and the chain that each slot belongs to.
-/

namespace BlockPool

namespace Nodes

variable {α : Type} {nodes after : Nodes α} {prev next : Option Nat} {xs ys : List Nat} {i j : Nat}

-- ---------------------------------------------------------------------------
-- The link in a slot
-- ---------------------------------------------------------------------------

theorem link?_modifyLink (nodes : Nodes α) (i : Nat) (f : Link → Link) (j : Nat) :
    (nodes.modifyLink i f).link? j =
      if j = i then (nodes.link? j).map f else nodes.link? j := by
  unfold modifyLink Slab.modifyAt link?
  cases hAt : nodes.at? i with
  | none =>
    by_cases hji : j = i
    · simp [hji, hAt]
    · simp [hji]
  | some node =>
    rw [Slab.at?_putAt]
    by_cases hji : j = i <;> simp [hji, hAt]

@[simp] theorem link?_putValue (nodes : Nodes α) (i : Nat) (value : α) (j : Nat) :
    (nodes.putValue i value).link? j = nodes.link? j := by
  unfold putValue Slab.modifyAt link?
  cases hAt : nodes.at? i with
  | none => rfl
  | some node =>
    rw [Slab.at?_putAt]
    by_cases hji : j = i <;> simp [hji, hAt]

theorem link?_insertValue (hSound : nodes.Sound) (value : α) (j : Nat) :
    (nodes.insertValue value).2.link? j =
      if j = nodes.nextKey.index then some {} else nodes.link? j := by
  rw [link?, insertValue, hSound.at?_insert]
  split <;> rfl

theorem value?_insertValue (hSound : nodes.Sound) (value : α) (j : Nat) :
    (nodes.insertValue value).2.value? j =
      if j = nodes.nextKey.index then some value else nodes.value? j := by
  rw [value?, insertValue, hSound.at?_insert]
  split <;> rfl

theorem link?_remove {key : Slab.Key} {node : Node α}
    (h : nodes.remove key = some (node, after)) (j : Nat) :
    after.link? j = if j = key.index then none else nodes.link? j := by
  rw [link?, Slab.at?_remove h]
  split <;> rfl

theorem value?_remove {key : Slab.Key} {node : Node α}
    (h : nodes.remove key = some (node, after)) (j : Nat) :
    after.value? j = if j = key.index then none else nodes.value? j := by
  rw [value?, Slab.at?_remove h]
  split <;> rfl

theorem value?_nextKey (hSound : nodes.Sound) : nodes.value? nodes.nextKey.index = none := by
  rw [value?, hSound.at?_nextKey]
  rfl

theorem isSome_value? (nodes : Nodes α) (i : Nat) :
    (nodes.value? i).isSome = (nodes.link? i).isSome := by
  rw [value?, link?, Option.isSome_map, Option.isSome_map]

theorem holds_eq_isSome (nodes : Nodes α) (i : Nat) :
    nodes.holds (some i) = (nodes.link? i).isSome := by
  rw [holds, link?, Option.isSome_map]

theorem holds_of_link? {link : Link} (h : nodes.link? i = some link) :
    nodes.holds (some i) = true := by
  rw [holds_eq_isSome, h]
  rfl

theorem holds_modifyLink (nodes : Nodes α) (i : Nat) (f : Link → Link) (j : Nat) :
    (nodes.modifyLink i f).holds (some j) = nodes.holds (some j) := by
  rw [holds_eq_isSome, holds_eq_isSome, link?_modifyLink]
  split
  · rw [Option.isSome_map]
  · rfl

theorem lt_size_of_link? {link : Link} (h : nodes.link? i = some link) : i < nodes.slots.size := by
  obtain ⟨node, hAt, -⟩ := Option.map_eq_some_iff.mp h
  exact Slab.lt_size_of_at? hAt

-- ---------------------------------------------------------------------------
-- Slots in a row
-- ---------------------------------------------------------------------------

/-- The slots are linked one after the other: the first follows `prev`, `next` follows the last. -/
def Strung (nodes : Nodes α) : Option Nat → List Nat → Option Nat → Prop
  | _, [], _ => True
  | prev, x :: rest, next =>
    nodes.link? x = some ⟨rest.head?.or next, prev, true⟩ ∧ Strung nodes (some x) rest next

theorem strung_append :
    nodes.Strung prev (xs ++ ys) next ↔
      nodes.Strung prev xs (ys.head?.or next) ∧ nodes.Strung (xs.getLast?.or prev) ys next := by
  induction xs generalizing prev with
  | nil => simp [Strung]
  | cons x rest ih =>
    have hLast : (x :: rest).getLast?.or prev = rest.getLast?.or (some x) := by
      rw [List.getLast?_cons]
      cases rest.getLast? <;> rfl
    rw [List.cons_append, Strung, Strung, ih, List.head?_append, Option.or_assoc, hLast, and_assoc]

/-- Every slot of a row is linked. -/
theorem Strung.exists_link (h : nodes.Strung prev xs next) (hMem : i ∈ xs) :
    ∃ link, nodes.link? i = some link ∧ link.linked = true := by
  induction xs generalizing prev with
  | nil => exact absurd hMem (by simp)
  | cons x rest ih =>
    obtain ⟨hLink, hRest⟩ := h
    rcases List.mem_cons.mp hMem with rfl | hLater
    · exact ⟨_, hLink, rfl⟩
    · exact ih hRest hLater

/-- A row depends on the links of its own slots only. -/
theorem Strung.congr (h : nodes.Strung prev xs next)
    (hSame : ∀ x ∈ xs, after.link? x = nodes.link? x) : after.Strung prev xs next := by
  induction xs generalizing prev with
  | nil => trivial
  | cons x rest ih =>
    obtain ⟨hLink, hRest⟩ := h
    refine ⟨(hSame x List.mem_cons_self).trans hLink, ih hRest fun y hy => ?_⟩
    exact hSame y (List.mem_cons_of_mem _ hy)

/-- Another slot follows a row once its last slot says so. -/
theorem Strung.setNext (h : nodes.Strung prev xs next) (hNodup : xs.Nodup) {next' : Option Nat}
    (hLinks : ∀ x ∈ xs, after.link? x =
      if xs.getLast? = some x then (nodes.link? x).map fun link => { link with next := next' }
      else nodes.link? x) : after.Strung prev xs next' := by
  induction xs generalizing prev with
  | nil => trivial
  | cons x rest ih =>
    obtain ⟨hLink, hRest⟩ := h
    obtain ⟨hNotMem, hNodupRest⟩ := List.nodup_cons.mp hNodup
    have hHere := hLinks x List.mem_cons_self
    cases rest with
    | nil =>
      rw [if_pos (by simp), hLink] at hHere
      exact ⟨hHere, trivial⟩
    | cons y later =>
      have hLast : (x :: y :: later).getLast? = (y :: later).getLast? := List.getLast?_cons_cons
      have hNotLast : (y :: later).getLast? ≠ some x := fun hEq =>
        hNotMem (List.mem_of_getLast? hEq)
      rw [hLast, if_neg hNotLast, hLink] at hHere
      refine ⟨hHere, ih hRest hNodupRest fun z hz => ?_⟩
      rw [hLinks z (List.mem_cons_of_mem _ hz), hLast]

/-- A row follows another slot once its first slot says so. -/
theorem Strung.setPrev (h : nodes.Strung prev xs next) (hNodup : xs.Nodup) {prev' : Option Nat}
    (hLinks : ∀ x ∈ xs, after.link? x =
      if xs.head? = some x then (nodes.link? x).map fun link => { link with prev := prev' }
      else nodes.link? x) : after.Strung prev' xs next := by
  cases xs with
  | nil => trivial
  | cons x rest =>
    obtain ⟨hLink, hRest⟩ := h
    have hNotMem := (List.nodup_cons.mp hNodup).1
    have hHere := hLinks x List.mem_cons_self
    rw [if_pos (by simp), hLink] at hHere
    refine ⟨hHere, hRest.congr fun y hy => ?_⟩
    have hNe : x ≠ y := fun hEq => hNotMem (hEq ▸ hy)
    rw [hLinks y (List.mem_cons_of_mem _ hy), if_neg (by simpa using hNe)]

/-- Walking along a row visits its slots in order, and then stops. -/
theorem Strung.walkFrom_take (h : nodes.Strung prev xs none) (count : Nat) :
    Chain.walkFrom nodes count xs.head? = xs.take count := by
  induction xs generalizing prev count with
  | nil => cases count <;> rfl
  | cons x rest ih =>
    obtain ⟨hLink, hRest⟩ := h
    cases count with
    | zero => rfl
    | succ count =>
      rw [List.head?_cons, Chain.walkFrom, Chain.next?, hLink, Option.bind_some, Option.or_none,
        ih hRest, List.take_succ_cons]

end Nodes

namespace Chain

variable {α : Type} {c c' : Chain} {nodes after : Nodes α} {xs as bs : List Nat} {i : Nat}

-- ---------------------------------------------------------------------------
-- The list of a chain
-- ---------------------------------------------------------------------------

/-- The chain stands for a list of slots, each once. -/
structure Spells (c : Chain) (nodes : Nodes α) (xs : List Nat) : Prop where
  strung : nodes.Strung none xs none
  nodup : xs.Nodup
  head : c.head = xs.head?
  tail : c.tail = xs.getLast?
  length : c.length = xs.length

theorem spells_empty (nodes : Nodes α) : empty.Spells nodes [] where
  strung := trivial
  nodup := List.nodup_nil
  head := rfl
  tail := rfl
  length := rfl

theorem Spells.congr (h : c.Spells nodes xs) (hSame : ∀ x ∈ xs, after.link? x = nodes.link? x) :
    c.Spells after xs :=
  ⟨h.strung.congr hSame, h.nodup, h.head, h.tail, h.length⟩

/-- Walking along a chain visits the whole list. -/
theorem Spells.toList_eq (h : c.Spells nodes xs) : c.toList nodes = xs := by
  have hFits : xs.length ≤ nodes.slots.size := by
    have hRange : xs ⊆ List.range nodes.slots.size := fun x hx => by
      obtain ⟨link, hLink, -⟩ := h.strung.exists_link hx
      exact List.mem_range.mpr (Nodes.lt_size_of_link? hLink)
    simpa using (List.subperm_of_subset h.nodup hRange).length_le
  rw [toList, walk, h.head, h.strung.walkFrom_take]
  exact List.take_of_length_le (by omega)

/-- A slot that is not linked is not in the list. -/
theorem Spells.notMem_of_loose (h : c.Spells nodes xs) {link : Link}
    (hLink : nodes.link? i = some link) (hLoose : link.linked = false) : i ∉ xs := by
  intro hMem
  obtain ⟨link', hLink', hLinked⟩ := h.strung.exists_link hMem
  obtain rfl : link = link' := by simpa [hLink] using hLink'
  simp [hLoose] at hLinked

/-- A slot with an unlinked value comes in front of the others. Only its own link and that of the
slot that was in front change. -/
theorem Spells.pushFront (h : c.Spells nodes xs) {link : Link} (hLink : nodes.link? i = some link)
    (hLoose : link.linked = false) :
    ∃ c' after, c.pushFront nodes i = some (c', after) ∧ c'.Spells after (i :: xs) ∧
      ∀ j, j ≠ i → j ∉ xs → after.link? j = nodes.link? j := by
  have hNew := h.notMem_of_loose hLink hLoose
  cases xs with
  -- into an empty chain, and in front of another slot
  | nil =>
    have hHead : c.head = none := h.head
    simp only [Chain.pushFront, hLink, hLoose, hHead, Bool.false_eq_true, if_false]
    refine ⟨_, _, rfl, ⟨⟨?_, trivial⟩, List.nodup_singleton i, rfl, rfl, by rw [h.length]; rfl⟩,
      fun j hj _ => ?_⟩
    · rw [Nodes.link?_modifyLink, if_pos rfl, hLink]
      rfl
    · rw [Nodes.link?_modifyLink, if_neg hj]
  | cons x rest =>
    obtain ⟨hFirst, hRest⟩ := h.strung
    obtain ⟨hx, hNodup⟩ := List.nodup_cons.mp h.nodup
    have hHead : c.head = some x := h.head
    have hNe : x ≠ i := fun hEq => hNew (hEq ▸ List.mem_cons_self)
    -- the slot that was in front is there, so its link can be changed
    have hHolds : (nodes.modifyLink i fun _ =>
        { next := some x, prev := none, linked := true }).holds (some x) = true :=
      Nodes.holds_of_link? (by rw [Nodes.link?_modifyLink, if_neg hNe]; exact hFirst)
    simp only [Chain.pushFront, hLink, hLoose, hHead, hHolds, Bool.false_eq_true, if_false, if_true]
    refine ⟨_, _, rfl, ⟨⟨?_, ?_, ?_⟩, List.nodup_cons.mpr ⟨hNew, h.nodup⟩, rfl, ?_, ?_⟩,
      fun j hj hMem => ?_⟩
    · rw [Nodes.link?_modifyLink, if_neg (Ne.symm hNe), Nodes.link?_modifyLink, if_pos rfl, hLink]
      rfl
    · rw [Nodes.link?_modifyLink, if_pos rfl, Nodes.link?_modifyLink, if_neg hNe, hFirst]
      rfl
    · refine hRest.congr fun y hy => ?_
      have hyx : y ≠ x := fun hEq => hx (hEq ▸ hy)
      have hyi : y ≠ i := fun hEq => hNew (hEq ▸ List.mem_cons_of_mem _ hy)
      rw [Nodes.link?_modifyLink, if_neg hyx, Nodes.link?_modifyLink, if_neg hyi]
    · rw [h.tail]
      exact List.getLast?_cons_cons.symm
    · rw [h.length]
      rfl
    · have hjx : j ≠ x := fun hEq => hMem (hEq ▸ List.mem_cons_self)
      rw [Nodes.link?_modifyLink, if_neg hjx, Nodes.link?_modifyLink, if_neg hj]

/-- A slot with an unlinked value comes behind the others. Only its own link and that of the slot
that was last change. -/
theorem Spells.pushBack (h : c.Spells nodes xs) {link : Link} (hLink : nodes.link? i = some link)
    (hLoose : link.linked = false) :
    ∃ c' after, c.pushBack nodes i = some (c', after) ∧ c'.Spells after (xs ++ [i]) ∧
      ∀ j, j ≠ i → j ∉ xs → after.link? j = nodes.link? j := by
  have hNew := h.notMem_of_loose hLink hLoose
  have hNodup : (xs ++ [i]).Nodup := List.nodup_append.mpr
    ⟨h.nodup, List.nodup_singleton i, fun x hx y hy hEq => by
      rw [List.mem_singleton] at hy
      exact hNew (hy ▸ hEq ▸ hx)⟩
  cases hLast : xs.getLast? with
  -- into an empty chain, and behind another slot
  | none =>
    obtain rfl := List.getLast?_eq_none_iff.mp hLast
    have hTail : c.tail = none := h.tail
    simp only [Chain.pushBack, hLink, hLoose, hTail, Bool.false_eq_true, if_false]
    refine ⟨_, _, rfl, ⟨⟨?_, trivial⟩, hNodup, rfl, rfl, by rw [h.length]; rfl⟩, fun j hj _ => ?_⟩
    · rw [Nodes.link?_modifyLink, if_pos rfl, hLink]
      rfl
    · rw [Nodes.link?_modifyLink, if_neg hj]
  | some x =>
    have hMem := List.mem_of_getLast? hLast
    have hTail : c.tail = some x := h.tail.trans hLast
    have hNe : x ≠ i := fun hEq => hNew (hEq ▸ hMem)
    obtain ⟨link', hLink', -⟩ := h.strung.exists_link hMem
    have hHolds : (nodes.modifyLink i fun _ =>
        { next := none, prev := some x, linked := true }).holds (some x) = true :=
      Nodes.holds_of_link? (by rw [Nodes.link?_modifyLink, if_neg hNe]; exact hLink')
    simp only [Chain.pushBack, hLink, hLoose, hTail, hHolds, Bool.false_eq_true, if_false, if_true]
    refine ⟨_, _, rfl, ⟨Nodes.strung_append.mpr ⟨?_, ?_, trivial⟩, hNodup, ?_, ?_, ?_⟩,
      fun j hj hOut => ?_⟩
    -- the slot that was last now points on
    · refine h.strung.setNext h.nodup fun y hy => ?_
      have hyi : y ≠ i := fun hEq => hNew (hEq ▸ hy)
      rw [Nodes.link?_modifyLink, Nodes.link?_modifyLink, if_neg hyi, hLast]
      simp only [Option.some.injEq, eq_comm (a := x)]
      rfl
    · rw [Nodes.link?_modifyLink, if_neg (Ne.symm hNe), Nodes.link?_modifyLink, if_pos rfl, hLink,
        hLast]
      rfl
    · rw [h.head]
      cases xs with
      | nil => exact absurd hMem (by simp)
      | cons y rest => rfl
    · simp
    · rw [h.length, List.length_append]
      rfl
    · have hjx : j ≠ x := fun hEq => hOut (hEq ▸ hMem)
      rw [Nodes.link?_modifyLink, if_neg hjx, Nodes.link?_modifyLink, if_neg hj]

theorem joinForward_eq (c : Chain) (nodes : Nodes α) {prev : Option Nat} (next : Option Nat)
    (hHolds : ∀ p, prev = some p → nodes.holds (some p) = true) :
    (c.joinForward nodes prev next).1 =
        { c with head := if prev = none then next else c.head } ∧
      ∀ j, (c.joinForward nodes prev next).2.link? j =
        if prev = some j then (nodes.link? j).map fun link => { link with next }
        else nodes.link? j := by
  cases prev with
  | none => simp [joinForward]
  | some p =>
    simp only [joinForward, hHolds p rfl, if_true]
    refine ⟨by simp, fun j => ?_⟩
    rw [Nodes.link?_modifyLink]
    simp only [Option.some.injEq, eq_comm]

theorem joinBackward_eq (c : Chain) (nodes : Nodes α) (prev : Option Nat) {next : Option Nat}
    (hHolds : ∀ n, next = some n → nodes.holds (some n) = true) :
    (c.joinBackward nodes prev next).1 =
        { c with tail := if next = none then prev else c.tail } ∧
      ∀ j, (c.joinBackward nodes prev next).2.link? j =
        if next = some j then (nodes.link? j).map fun link => { link with prev }
        else nodes.link? j := by
  cases next with
  | none => simp [joinBackward]
  | some n =>
    simp only [joinBackward, hHolds n rfl, if_true]
    refine ⟨by simp, fun j => ?_⟩
    rw [Nodes.link?_modifyLink]
    simp only [Option.some.injEq, eq_comm]

/-- Two slots of the slab become neighbours; where one is missing, the other is at an end. -/
theorem join_eq (c : Chain) (nodes : Nodes α) {prev next : Option Nat}
    (hPrev : ∀ p, prev = some p → nodes.holds (some p) = true)
    (hNext : ∀ n, next = some n → nodes.holds (some n) = true)
    (hApart : ∀ p, prev = some p → next ≠ some p) :
    let forward := c.joinForward nodes prev next
    let joined := forward.1.joinBackward forward.2 prev next
    joined.1 = { c with
      head := if prev = none then next else c.head
      tail := if next = none then prev else c.tail } ∧
    ∀ j, joined.2.link? j =
      if prev = some j then (nodes.link? j).map fun link => { link with next }
      else if next = some j then (nodes.link? j).map fun link => { link with prev }
      else nodes.link? j := by
  intro forward joined
  obtain ⟨hHead, hForward⟩ := joinForward_eq c nodes next hPrev
  have hHolds : ∀ n, next = some n → forward.2.holds (some n) = true := by
    intro n hn
    rw [Nodes.holds_eq_isSome, hForward, if_neg fun hEq => hApart n hEq hn,
      ← Nodes.holds_eq_isSome]
    exact hNext n hn
  obtain ⟨hTail, hBackward⟩ := joinBackward_eq forward.1 forward.2 prev hHolds
  refine ⟨hTail.trans (by rw [hHead]), fun j => ?_⟩
  rw [hBackward, hForward]
  by_cases hj : prev = some j
  · rw [if_neg (hApart j hj), if_pos hj, if_pos hj]
  · rw [if_neg hj, if_neg hj]

/-- A slot of the chain goes, and its neighbours close up. Nothing outside the list changes. -/
theorem Spells.unlink (h : c.Spells nodes (as ++ i :: bs)) :
    ∃ c' after, c.unlink nodes i = some (c', after) ∧ c'.Spells after (as ++ bs) ∧
      after.link? i = some {} ∧ ∀ j, j ∉ as ++ i :: bs → after.link? j = nodes.link? j := by
  obtain ⟨hFront, hLink, hBack⟩ := Nodes.strung_append.mp h.strung
  rw [Option.or_none, Option.or_none] at hLink
  obtain ⟨hAs, hRest, hApart⟩ := List.nodup_append.mp h.nodup
  obtain ⟨hiBs, hBs⟩ := List.nodup_cons.mp hRest
  have hiAs : i ∉ as := fun hMem => hApart i hMem i List.mem_cons_self rfl
  have hAsBs : ∀ x ∈ as, x ∉ bs := fun x hx hMem =>
    hApart x hx x (List.mem_cons_of_mem _ hMem) rfl
  -- the slot by itself, before its neighbours close up
  have hAlone : ∀ j, (nodes.modifyLink i fun _ => {}).link? j =
      if j = i then some {} else nodes.link? j := by
    intro j
    rw [Nodes.link?_modifyLink]
    split
    · rename_i hj
      rw [hj, hLink]
      rfl
    · rfl
  -- the neighbours are there, and are two slots if both are
  obtain ⟨hEnds, hLinks⟩ := join_eq c (nodes.modifyLink i fun _ => {})
    (fun p hp => by
      obtain ⟨link, hHere, -⟩ := hFront.exists_link (List.mem_of_getLast? hp)
      rw [Nodes.holds_modifyLink]
      exact Nodes.holds_of_link? hHere)
    (fun n hn => by
      obtain ⟨link, hHere, -⟩ := hBack.exists_link (List.mem_of_mem_head? hn)
      rw [Nodes.holds_modifyLink]
      exact Nodes.holds_of_link? hHere)
    fun p hp hn => hAsBs p (List.mem_of_getLast? hp) (List.mem_of_mem_head? hn)
  refine ⟨_, _, by simp only [Chain.unlink, hLink, if_true]; rfl, ⟨?_, ?_, ?_, ?_, ?_⟩, ?_, ?_⟩
  -- both parts stay strung, but for their ends, which are joined
  · rw [Nodes.strung_append, Option.or_none, Option.or_none]
    refine ⟨hFront.setNext hAs fun x hx => ?_, hBack.setPrev hBs fun x hx => ?_⟩
    · have hxi : x ≠ i := fun hEq => hiAs (hEq ▸ hx)
      have hNotFirst : bs.head? ≠ some x := fun hEq => hAsBs x hx (List.mem_of_mem_head? hEq)
      rw [hLinks, if_neg hNotFirst, hAlone, if_neg hxi]
    · have hxi : x ≠ i := fun hEq => hiBs (hEq ▸ hx)
      have hNotLast : as.getLast? ≠ some x := fun hEq => hAsBs x (List.mem_of_getLast? hEq) hx
      rw [hLinks, if_neg hNotLast, hAlone, if_neg hxi]
  · exact h.nodup.sublist (List.Sublist.append_left (List.sublist_cons_self i bs) as)
  · dsimp only
    rw [hEnds]
    cases as with
    | nil => rfl
    | cons x rest => simp [h.head]
  · dsimp only
    rw [hEnds]
    cases bs with
    | nil => simp
    | cons y rest => simp [h.tail, List.getLast?_append, List.getLast?_cons_cons]
  · dsimp only
    rw [hEnds]
    simp only [h.length, List.length_append, List.length_cons]
    omega
  · have hNotFirst : bs.head? ≠ some i := fun hEq => hiBs (List.mem_of_mem_head? hEq)
    have hNotLast : as.getLast? ≠ some i := fun hEq => hiAs (List.mem_of_getLast? hEq)
    rw [hLinks, if_neg hNotLast, if_neg hNotFirst, hAlone, if_pos rfl]
  · intro j hj
    simp only [List.mem_append, List.mem_cons, not_or] at hj
    obtain ⟨hjAs, hji, hjBs⟩ := hj
    have hNotFirst : bs.head? ≠ some j := fun hEq => hjBs (List.mem_of_mem_head? hEq)
    have hNotLast : as.getLast? ≠ some j := fun hEq => hjAs (List.mem_of_getLast? hEq)
    rw [hLinks, if_neg hNotLast, if_neg hNotFirst, hAlone, if_neg hji]

-- ---------------------------------------------------------------------------
-- Several chains over one slab
-- ---------------------------------------------------------------------------

/-- Each slot is in the chain of its place, and a slot without a place is in none. -/
structure Files {κ : Type} (chain : κ → Chain) (nodes : Nodes α) (place : Nat → Option κ) :
    Prop where
  spells : ∀ k, ∃ xs, (chain k).Spells nodes xs ∧ ∀ i, i ∈ xs ↔ place i = some k
  loose : ∀ i link, nodes.link? i = some link → place i = none → link.linked = false

variable {κ : Type} {chain : κ → Chain} {place place' : Nat → Option κ} {k : κ}

theorem Files.spells_toList (h : Files chain nodes place) (k : κ) :
    (chain k).Spells nodes ((chain k).toList nodes) := by
  obtain ⟨xs, hSpells, -⟩ := h.spells k
  rwa [hSpells.toList_eq]

/-- The slots of a chain are those of its place. -/
theorem Files.mem_toList (h : Files chain nodes place) :
    i ∈ (chain k).toList nodes ↔ place i = some k := by
  obtain ⟨xs, hSpells, hMem⟩ := h.spells k
  rw [hSpells.toList_eq, hMem]

/-- What is filed depends on the links only. -/
theorem Files.congr (h : Files chain nodes place) (hLinks : ∀ i, after.link? i = nodes.link? i)
    (hPlace : ∀ i, place' i = place i) : Files chain after place' := by
  obtain rfl : place' = place := funext hPlace
  refine ⟨fun k => ?_, fun i link hLink => h.loose i link (hLinks i ▸ hLink)⟩
  obtain ⟨xs, hSpells, hMem⟩ := h.spells k
  exact ⟨xs, hSpells.congr fun x _ => hLinks x, hMem⟩

/-- A slot without a place may get a value that is not linked, or lose its value. -/
theorem Files.setLoose (h : Files chain nodes place) (hPlace : place i = none)
    (hLinks : ∀ j, j ≠ i → after.link? j = nodes.link? j)
    (hLoose : ∀ link, after.link? i = some link → link.linked = false) :
    Files chain after place := by
  refine ⟨fun k => ?_, fun j link hLink hNone => ?_⟩
  · obtain ⟨xs, hSpells, hMem⟩ := h.spells k
    refine ⟨xs, hSpells.congr fun x hx => hLinks x ?_, hMem⟩
    rintro rfl
    simp [(hMem x).mp hx] at hPlace
  · by_cases hj : j = i
    · exact hLoose link (hj ▸ hLink)
    · exact h.loose j link (hLinks j hj ▸ hLink) hNone

/-- A value that comes in is in no chain at first. -/
theorem Files.insertValue (h : Files chain nodes place) (hSound : nodes.Sound)
    (hPlace : place nodes.nextKey.index = none) (value : α) :
    Files chain (nodes.insertValue value).2 place := by
  refine h.setLoose hPlace (fun j hj => ?_) fun link hLink => ?_
  · rw [Nodes.link?_insertValue hSound, if_neg hj]
  · rw [Nodes.link?_insertValue hSound, if_pos rfl] at hLink
    obtain rfl := Option.some.inj hLink
    rfl

/-- A value that is in no chain may go. -/
theorem Files.remove (h : Files chain nodes place) {key : Slab.Key} {node : Node α}
    (hRemove : nodes.remove key = some (node, after)) (hPlace : place key.index = none) :
    Files chain after place := by
  refine h.setLoose hPlace (fun j hj => ?_) fun link hLink => ?_
  · rw [Nodes.link?_remove hRemove, if_neg hj]
  · rw [Nodes.link?_remove hRemove, if_pos rfl] at hLink
    exact absurd hLink (by simp)

variable [DecidableEq κ]

/-- A chain that changed within its own list is replaced, and with it the places of its slots. -/
theorem Files.replace (h : Files chain nodes place) {ys : List Nat}
    (hSpells : c'.Spells after ys) (hMem : ∀ j, j ∈ ys ↔ place' j = some k)
    (hPlace : ∀ j, j ≠ i → place' j = place j)
    (hHere : place i = none ∨ place i = some k)
    (hLinks : ∀ j, j ≠ i → place j ≠ some k → after.link? j = nodes.link? j)
    (hLoose : ∀ link, after.link? i = some link → place' i = none → link.linked = false)
    (hNow : place' i = none ∨ place' i = some k) :
    Files (Function.update chain k c') after place' := by
  refine ⟨fun other => ?_, fun j link hLink hNone => ?_⟩
  · by_cases hOther : other = k
    · subst hOther
      exact ⟨ys, by rwa [Function.update_self], hMem⟩
    · obtain ⟨xs, hBefore, hxs⟩ := h.spells other
      -- the slot that moves is in the other chain neither before nor after
      have hNot : ∀ place₀ : Nat → Option κ, place₀ i = none ∨ place₀ i = some k →
          place₀ i ≠ some other := by
        rintro place₀ (hNone | hSome) hEq
        · simp [hNone] at hEq
        · exact hOther (Option.some.inj (hEq.symm.trans hSome))
      refine ⟨xs, ?_, fun j => ?_⟩
      · rw [Function.update_of_ne hOther]
        refine hBefore.congr fun x hx => ?_
        have hx' := (hxs x).mp hx
        refine hLinks x (fun hEq => hNot place hHere (hEq ▸ hx')) fun hk => ?_
        exact hOther (Option.some.inj (hx'.symm.trans hk))
      · rw [hxs]
        by_cases hj : j = i
        · rw [hj]
          exact iff_of_false (hNot place hHere) (hNot place' hNow)
        · rw [hPlace j hj]
  · by_cases hj : j = i
    · subst hj
      exact hLoose link hLink hNone
    · rw [hPlace j hj] at hNone
      refine h.loose j link ?_ hNone
      rw [← hLinks j hj (by simp [hNone])]
      exact hLink

/-- A slot without a place gets one. -/
theorem Files.pushFront (h : Files chain nodes place) (hPlace : place i = none) {link : Link}
    (hLink : nodes.link? i = some link) (k : κ) :
    ∃ c' after, (chain k).pushFront nodes i = some (c', after) ∧
      Files (Function.update chain k c') after (Function.update place i (some k)) := by
  obtain ⟨xs, hSpells, hMem⟩ := h.spells k
  obtain ⟨c', after, hPush, hAfter, hLinks⟩ :=
    hSpells.pushFront hLink (h.loose i link hLink hPlace)
  refine ⟨c', after, hPush, h.replace hAfter (fun j => ?_)
    (fun j hj => Function.update_of_ne hj ..) (.inl hPlace)
    (fun j hj hk => hLinks j hj (mt (hMem j).mp hk)) (by simp) (by simp)⟩
  rw [List.mem_cons, hMem]
  by_cases hj : j = i
  · simp [hj]
  · simp [hj]

/-- A slot loses its place. -/
theorem Files.unlink (h : Files chain nodes place) (hPlace : place i = some k) :
    ∃ c' after, (chain k).unlink nodes i = some (c', after) ∧
      Files (Function.update chain k c') after (Function.update place i none) := by
  obtain ⟨xs, hSpells, hMem⟩ := h.spells k
  obtain ⟨as, bs, rfl⟩ := List.append_of_mem ((hMem i).mpr hPlace)
  obtain ⟨c', after, hUnlink, hAfter, hAlone, hLinks⟩ := hSpells.unlink
  have hNodup := hSpells.nodup
  rw [List.nodup_middle, List.nodup_cons] at hNodup
  refine ⟨c', after, hUnlink, h.replace hAfter (fun j => ?_)
    (fun j hj => Function.update_of_ne hj ..) (.inr hPlace)
    (fun j _ hk => hLinks j (mt (hMem j).mp hk)) (fun link hLink _ => ?_) (by simp)⟩
  · by_cases hj : j = i
    · subst hj
      simp [List.mem_append.not.mp hNodup.1]
    · rw [Function.update_of_ne hj, ← hMem]
      simp [hj]
  · obtain rfl : {} = link := by simpa [hAlone] using hLink
    rfl

end Chain

end BlockPool
