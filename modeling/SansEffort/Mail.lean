import SansEffort.Library.Slices
import SansEffort.Reply
import Mathlib.Data.List.DropRight

/-!
# The mailbox

One slot per outstanding request (`driver/mail.rs`). The slots are kept sorted by id, closed
in place and swept out in bulk; what callers rely on is only the map from ids to open slots,
`Mail.lookup`. `Mail.Shape` is what makes the one behave as the other.
-/

namespace SansEffort

/-- A waker's identity: two wakers `will_wake` the same task when they are equal. -/
abbrev Waker := Nat

structure Slot where
  id : Nat
  isOpen : Bool
  value : Option Value
  check : Check
  waker : Option Waker

structure Mail where
  driver : Nat
  slots : List Slot
  opened : Nat
  closed : List Nat
  next : Nat

/-- What became of a reply. -/
inductive Delivery
  | delivered (waker : Option Waker)
  | gone
  | refused (reply : ReplyHandle) (error : DecodeError)

namespace Mail

def new (driver : Nat) : Mail := ⟨driver, [], 0, [], 1⟩

def mint (m : Mail) : ReplyHandle × Mail :=
  (⟨m.driver, m.next⟩, { m with next := m.next + 1 })

def openSlot (m : Mail) (id : Nat) (check : Check) : Mail :=
  let slot : Slot := ⟨id, true, none, check, none⟩
  let slots :=
    if m.slots.getLast?.all (fun last => last.id < id) then m.slots ++ [slot]
    else m.slots.insertIdx (Slice.partitionPoint (fun other => decide (other.id < id)) m.slots) slot
  { m with slots, opened := m.opened + 1 }

def take (m : Mail) (place : Nat) : Option Value × Mail :=
  match (m.slots[place]?).filter (·.isOpen) with
  | none => (none, m)
  | some slot =>
    let slots := m.slots.set place { slot with isOpen := false, value := none, waker := none }
    let opened := m.opened - 1
    -- the last slot is popped, with any closed ones before it
    let slots := slots.rdropWhile fun last => !last.isOpen
    -- the closed are swept out once they outnumber the open
    let slots := if opened < slots.length - opened then slots.filter (·.isOpen) else slots
    (slot.value, { m with slots, opened })

def position (m : Mail) (id : Nat) : Option Nat :=
  match m.slots.length with
  | 0 => none
  | newest + 1 =>
    if (m.slots[newest]?).any (fun slot => slot.id == id) then some newest
    else (Slice.binarySearchByKey Slot.id id m.slots).filter fun place =>
      (m.slots[place]?).any (·.isOpen)

/-- `none` is a panic: the handle was minted by another driver, or the value is not of the
slot's kind. -/
def deliver (m : Mail) (reply : ReplyHandle) (value : Value) : Option (Delivery × Mail) :=
  if reply.driver ≠ m.driver then none
  else match (m.position reply.id).bind fun place => (m.slots[place]?).map (place, ·) with
    | none => some (.gone, m)
    | some (place, slot) =>
      (slot.check value).map fun
        | .ok () =>
          (.delivered slot.waker,
            { m with slots := m.slots.set place { slot with value := some value, waker := none } })
        | .error error => (.refused ⟨reply.driver, reply.id⟩ error, m)

def collect (m : Mail) (id : Nat) (waker : Option Waker) : Option Value × Mail :=
  match (m.position id).bind fun place => (m.slots[place]?).map (place, ·) with
  | none => (none, m)
  | some (place, slot) =>
    if slot.value.isSome then m.take place
    else match waker with
      | some waker =>
        if slot.waker = some waker then (none, m)
        else (none, { m with slots := m.slots.set place { slot with waker := some waker } })
      | none => (none, m)

def close (m : Mail) (id : Nat) : Mail :=
  match m.position id with
  | none => m
  | some place =>
    match m.take place with
    | (none, m) => { m with closed := m.closed ++ [id] }
    | (some _, m) => m

def takeClosed (m : Mail) : List Nat × Mail := (m.closed, { m with closed := [] })

def outstanding (m : Mail) : Nat := m.opened

/-! ### The shape of the slots -/

/-- Ids strictly increase, `opened` counts the open slots, the last slot is open, and the
closed never outnumber the open. -/
structure Shape (m : Mail) : Prop where
  sorted : Slice.Sorted Slot.id m.slots
  counted : m.opened = (m.slots.filter (·.isOpen)).length
  last_open : ∀ last, m.slots.getLast? = some last → last.isOpen = true
  few_closed : m.slots.length - m.opened ≤ m.opened

/-- The open slot of a request: the mailbox as a map. -/
def lookup (m : Mail) (id : Nat) : Option Slot :=
  (m.slots.filter (·.isOpen)).find? fun slot => slot.id == id

theorem shape_new (driver : Nat) : (new driver).Shape where
  sorted := .nil
  counted := rfl
  last_open := by simp [new]
  few_closed := Nat.zero_le _

theorem find?_eq_some_iff_of_sorted {slots : List Slot} (sorted : Slice.Sorted Slot.id slots)
    (id : Nat) (slot : Slot) :
    slots.find? (fun s => s.id == id) = some slot ↔ slot ∈ slots ∧ slot.id = id := by
  constructor
  · intro found
    exact ⟨List.mem_of_find?_eq_some found, by simpa using List.find?_some found⟩
  · rintro ⟨member, rfl⟩
    cases found : slots.find? (fun s => s.id == slot.id) with
    | none => simp [List.find?_eq_none] at found; exact absurd rfl (found slot member)
    | some other =>
      have same : other.id = slot.id := by simpa using List.find?_some found
      obtain ⟨i, boundI, left⟩ := List.getElem_of_mem (List.mem_of_find?_eq_some found)
      obtain ⟨j, boundJ, right⟩ := List.getElem_of_mem member
      have left' : slots[i]? = some other := by rw [List.getElem?_eq_getElem boundI, left]
      have right' : slots[j]? = some slot := by rw [List.getElem?_eq_getElem boundJ, right]
      have := Slice.sorted_getElem_inj sorted left' right' same
      subst this
      rw [left'] at right'
      exact right'

theorem Shape.lookup_eq_some_iff {m : Mail} (shape : m.Shape) (id : Nat) (slot : Slot) :
    m.lookup id = some slot ↔ slot ∈ m.slots ∧ slot.isOpen = true ∧ slot.id = id := by
  unfold lookup
  rw [find?_eq_some_iff_of_sorted (shape.sorted.sublist List.filter_sublist), List.mem_filter,
    and_assoc]

theorem lookup_id {m : Mail} {id : Nat} {slot : Slot} (found : m.lookup id = some slot) :
    slot.id = id := by
  simpa using List.find?_some found

/-- Whether a request has an open slot is whether its id is among the open ones. -/
theorem lookup_isSome_iff (m : Mail) (id : Nat) :
    (m.lookup id).isSome = true ↔ id ∈ (m.slots.filter (·.isOpen)).map Slot.id := by
  unfold lookup
  rw [List.find?_isSome]
  simp

/-- A lookup finds the open slot with the id asked for, newest first or by binary search. -/
theorem Shape.position_eq_some_iff {m : Mail} (shape : m.Shape) (id place : Nat) :
    m.position id = some place ↔
      ∃ slot, m.slots[place]? = some slot ∧ slot.isOpen = true ∧ slot.id = id := by
  unfold position
  cases size : m.slots.length with
  | zero => simp [List.length_eq_zero_iff.mp size]
  | succ newest =>
    have bound : newest < m.slots.length := by omega
    have element := List.getElem?_eq_getElem bound
    have last : m.slots.getLast? = some m.slots[newest] := by
      rw [List.getLast?_eq_getElem?, show m.slots.length - 1 = newest by omega, element]
    have isOpen := shape.last_open _ last
    by_cases hit : m.slots[newest].id = id
    · simp only [element, Option.any_some, hit, BEq.rfl, if_true, Option.some.injEq]
      constructor
      · rintro rfl
        exact ⟨_, element, isOpen, hit⟩
      · rintro ⟨slot, found, _, rfl⟩
        exact Slice.sorted_getElem_inj shape.sorted element found hit
    · simp only [element, Option.any_some, beq_eq_false_iff_ne.mpr hit, Bool.false_eq_true,
        if_false, Option.filter_eq_some_iff, Option.any_eq_true]
      rw [Slice.binarySearchByKey_eq_some_iff id m.slots shape.sorted]
      constructor
      · rintro ⟨⟨slot, found, same⟩, other, again, isOpen⟩
        rw [found] at again
        cases again
        exact ⟨slot, found, isOpen, same⟩
      · rintro ⟨slot, found, isOpen, same⟩
        exact ⟨⟨slot, found, same⟩, slot, found, isOpen⟩

theorem Shape.position_bind {m : Mail} (shape : m.Shape) (id : Nat) :
    (∃ place slot, (m.position id).bind (fun place => (m.slots[place]?).map (place, ·)) =
        some (place, slot) ∧ m.slots[place]? = some slot ∧ slot.isOpen = true ∧
        m.position id = some place ∧ m.lookup id = some slot) ∨
      ((m.position id).bind (fun place => (m.slots[place]?).map (place, ·)) = none ∧
        m.position id = none ∧ m.lookup id = none) := by
  cases found : m.position id with
  | some place =>
    obtain ⟨slot, element, isOpen, same⟩ := (shape.position_eq_some_iff id place).mp found
    left
    refine ⟨place, slot, by simp [element], element, isOpen, rfl, ?_⟩
    exact (shape.lookup_eq_some_iff id slot).mpr ⟨List.mem_of_getElem? element, isOpen, same⟩
  | none =>
    right
    refine ⟨rfl, rfl, ?_⟩
    cases there : m.lookup id with
    | none => rfl
    | some slot =>
      obtain ⟨member, isOpen, same⟩ := (shape.lookup_eq_some_iff id slot).mp there
      obtain ⟨place, bound, element⟩ := List.getElem_of_mem member
      have := (shape.position_eq_some_iff id place).mpr
        ⟨slot, by rw [List.getElem?_eq_getElem bound, element], isOpen, same⟩
      rw [found] at this
      cases this

/-! ### What each operation does to the map -/

/-- `m'` is `m` with what is kept for one request replaced by `slot`, and `closed` reported. -/
structure Updated (m m' : Mail) (id : Nat) (slot : Option Slot) (closed : List Nat) : Prop where
  shape : m'.Shape
  lookup : ∀ other, m'.lookup other = if other = id then slot else m.lookup other
  ids : ∀ kept ∈ m'.slots,
    (∃ old ∈ m.slots, old.id = kept.id) ∨ (kept.id = id ∧ slot.isSome = true)
  closed : m'.closed = m.closed ++ closed
  next : m'.next = m.next
  driver : m'.driver = m.driver

/-- Replacing a slot by one with the same id changes what the list holds under that id only. -/
theorem mem_set_iff_of_sorted {slots : List Slot} (sorted : Slice.Sorted Slot.id slots)
    {place : Nat} {slot new : Slot} (element : slots[place]? = some slot) (same : new.id = slot.id)
    (other : Slot) :
    other ∈ slots.set place new ↔ other = new ∨ (other ∈ slots ∧ other.id ≠ slot.id) := by
  have bound := (List.getElem?_eq_some_iff.mp element).1
  constructor
  · intro member
    obtain ⟨i, at_i⟩ := List.mem_iff_getElem?.mp member
    rw [List.getElem?_set] at at_i
    split at at_i
    · left
      exact (Option.some.inj at_i).symm
    · next away =>
      right
      refine ⟨List.mem_of_getElem? at_i, fun equal => away ?_⟩
      exact (Slice.sorted_getElem_inj sorted at_i element equal).symm
  · rintro (rfl | ⟨member, different⟩)
    · exact List.mem_set bound _
    · obtain ⟨i, at_i⟩ := List.mem_iff_getElem?.mp member
      apply List.mem_iff_getElem?.mpr
      refine ⟨i, ?_⟩
      rw [List.getElem?_set, if_neg]
      · exact at_i
      · rintro rfl
        rw [element] at at_i
        cases at_i
        exact different rfl

private theorem sorted_set {slots : List Slot} (sorted : Slice.Sorted Slot.id slots)
    {place : Nat} {slot new : Slot} (element : slots[place]? = some slot)
    (same : new.id = slot.id) : Slice.Sorted Slot.id (slots.set place new) := by
  have ids : (slots.set place new).map Slot.id = slots.map Slot.id := by
    obtain ⟨bound, rfl⟩ := List.getElem?_eq_some_iff.mp element
    rw [List.map_set, same, ← List.getElem_map Slot.id (h := by simpa using bound)]
    exact List.set_getElem_self _
  have := sorted
  unfold Slice.Sorted at this ⊢
  rw [← List.pairwise_map (f := Slot.id) (R := fun a b => a < b)] at this ⊢
  rw [ids]
  exact this

/-- How many slots are open once an open one is replaced. -/
private theorem length_open_set {slots : List Slot} {place : Nat} {slot : Slot}
    (element : slots[place]? = some slot) (isOpen : slot.isOpen = true) (new : Slot) :
    ((slots.set place new).filter (·.isOpen)).length =
      (slots.filter (·.isOpen)).length - 1 + if new.isOpen = true then 1 else 0 := by
  obtain ⟨bound, value⟩ := List.getElem?_eq_some_iff.mp element
  rw [← List.countP_eq_length_filter, ← List.countP_eq_length_filter, List.countP_set bound, value,
    isOpen]
  rfl

/-- What is open once one slot is shut. -/
private theorem mem_open_set {slots : List Slot} (sorted : Slice.Sorted Slot.id slots)
    {place : Nat} {slot shut : Slot} (element : slots[place]? = some slot)
    (same : shut.id = slot.id) (closed : shut.isOpen = false) (other : Slot) :
    other ∈ (slots.set place shut).filter (·.isOpen) ↔
      other ∈ slots ∧ other.isOpen = true ∧ other.id ≠ slot.id := by
  rw [List.mem_filter, mem_set_iff_of_sorted sorted element same]
  constructor
  · rintro ⟨rfl | ⟨there, different⟩, opens⟩
    · cases closed.symm.trans opens
    · exact ⟨there, opens, different⟩
  · rintro ⟨there, opens, different⟩
    exact ⟨.inr ⟨there, different⟩, opens⟩

theorem Shape.set_open {m : Mail} (shape : m.Shape) {place : Nat} {slot new : Slot}
    (element : m.slots[place]? = some slot) (isOpen : slot.isOpen = true) (same : new.id = slot.id)
    (still : new.isOpen = true) :
    Updated m { m with slots := m.slots.set place new } slot.id (some new) [] := by
  have bound := (List.getElem?_eq_some_iff.mp element).1
  -- as many are open as before
  have count : ((m.slots.set place new).filter (·.isOpen)).length =
      (m.slots.filter (·.isOpen)).length := by
    have positive : 0 < (m.slots.filter (·.isOpen)).length :=
      List.length_pos_of_mem (List.mem_filter.mpr ⟨List.mem_of_getElem? element, isOpen⟩)
    rw [length_open_set element isOpen, if_pos still]
    omega
  have shaped : Shape { m with slots := m.slots.set place new } := by
    refine ⟨sorted_set shape.sorted element same, ?_, ?_, ?_⟩
    · rw [count]
      exact shape.counted
    · intro last found
      rw [List.getLast?_eq_getElem?, List.length_set, List.getElem?_set] at found
      split at found
      · exact Option.some.inj found ▸ still
      · exact shape.last_open last (by rw [List.getLast?_eq_getElem?, found])
    · simpa using shape.few_closed
  refine ⟨shaped, fun id => Option.ext fun other => ?_, ?_, (List.append_nil _).symm, rfl, rfl⟩
  -- and no id is new
  rotate_left
  · intro kept member
    rcases (mem_set_iff_of_sorted shape.sorted element same kept).mp member with rfl | ⟨there, _⟩
    · exact .inl ⟨slot, List.mem_of_getElem? element, same.symm⟩
    · exact .inl ⟨kept, there, rfl⟩
  rw [shaped.lookup_eq_some_iff, mem_set_iff_of_sorted shape.sorted element same]
  split
  · next here =>
    subst here
    constructor
    · rintro ⟨rfl | ⟨_, different⟩, _, equal⟩
      · rfl
      · exact absurd equal different
    · rintro ⟨⟩
      exact ⟨.inl rfl, still, same⟩
  · next elsewhere =>
    rw [shape.lookup_eq_some_iff]
    constructor
    · rintro ⟨rfl | ⟨member, _⟩, opens, equal⟩
      · exact absurd (equal.symm.trans same) elsewhere
      · exact ⟨member, opens, equal⟩
    · rintro ⟨member, opens, equal⟩
      exact ⟨.inr ⟨member, fun back => elsewhere (equal.symm.trans back)⟩, opens, equal⟩

private theorem filter_rdropWhile_closed (slots : List Slot) :
    (slots.rdropWhile fun last => !last.isOpen).filter (·.isOpen) = slots.filter (·.isOpen) := by
  induction slots using List.reverseRecOn with
  | nil => rfl
  | append_singleton slots last ih =>
    rw [List.rdropWhile_concat]
    split
    · next shut =>
      have : last.isOpen = false := by simpa using shut
      rw [ih, List.filter_append, List.filter_cons_of_neg (by simp [this])]
      simp
    · rfl

/-- Popping the closed slots at the end and sweeping out the others keeps the open ones, and
restores the shape. -/
private theorem shape_swept (m : Mail) (slots : List Slot) (opened : Nat)
    (sorted : Slice.Sorted Slot.id slots) (counted : opened = (slots.filter (·.isOpen)).length) :
    let popped := slots.rdropWhile fun last => !last.isOpen
    let swept := if opened < popped.length - opened then popped.filter (·.isOpen) else popped
    Shape { m with slots := swept, opened } ∧ swept.filter (·.isOpen) = slots.filter (·.isOpen) := by
  intro popped swept
  have kept : popped.filter (·.isOpen) = slots.filter (·.isOpen) := filter_rdropWhile_closed slots
  have prefixed : popped.Sublist slots := (List.rdropWhile_prefix _ slots).sublist
  by_cases many : opened < popped.length - opened
  -- swept: only open slots are left
  · have all : swept = popped.filter (·.isOpen) := if_pos many
    have same : swept.filter (·.isOpen) = slots.filter (·.isOpen) := by
      rw [all, List.filter_filter]
      simpa using kept
    refine ⟨⟨?_, ?_, ?_, ?_⟩, same⟩
    · show Slice.Sorted Slot.id swept
      rw [all]
      exact (sorted.sublist prefixed).sublist List.filter_sublist
    · show opened = (swept.filter (·.isOpen)).length
      rw [same, counted]
    · intro last found
      have : last ∈ popped.filter (·.isOpen) := all ▸ List.mem_of_getLast? found
      exact (List.mem_filter.mp this).2
    · show swept.length - opened ≤ opened
      rw [all, kept, ← counted]
      omega
  -- not swept: the slot popping stopped at is open
  · have all : swept = popped := if_neg many
    refine ⟨⟨?_, ?_, ?_, ?_⟩, all ▸ kept⟩
    · show Slice.Sorted Slot.id swept
      exact all ▸ sorted.sublist prefixed
    · show opened = (swept.filter (·.isOpen)).length
      rw [all, kept, counted]
    · intro last found
      change swept.getLast? = some last at found
      rw [all] at found
      have nonempty : popped ≠ [] := by
        intro empty
        rw [empty] at found
        cases found
      have := List.rdropWhile_last_not (fun last : Slot => !last.isOpen) slots nonempty
      rw [List.getLast?_eq_some_getLast nonempty] at found
      obtain rfl := Option.some.inj found
      simpa using this
    · show swept.length - opened ≤ opened
      rw [all]
      omega

private theorem take_open {m : Mail} {place : Nat} {slot : Slot}
    (element : m.slots[place]? = some slot) (isOpen : slot.isOpen = true) :
    let shut : Slot := { slot with isOpen := false, value := none, waker := none }
    let popped := (m.slots.set place shut).rdropWhile fun last => !last.isOpen
    m.take place = (slot.value, { m with
      slots := if m.opened - 1 < popped.length - (m.opened - 1) then popped.filter (·.isOpen)
        else popped
      opened := m.opened - 1 }) := by
  unfold Mail.take
  rw [element]
  simp only [Option.filter, isOpen, if_true]

/-- Taking a slot hands over its value and removes it from the map. -/
theorem Shape.take {m : Mail} (shape : m.Shape) {place : Nat} {slot : Slot}
    (element : m.slots[place]? = some slot) (isOpen : slot.isOpen = true) :
    (m.take place).1 = slot.value ∧ Updated m (m.take place).2 slot.id none [] := by
  let shut : Slot := { slot with isOpen := false, value := none, waker := none }
  have count : m.opened - 1 = ((m.slots.set place shut).filter (·.isOpen)).length := by
    rw [shape.counted, length_open_set element isOpen]
    rfl
  obtain ⟨shaped, same⟩ := shape_swept m (m.slots.set place shut) (m.opened - 1)
    (sorted_set shape.sorted element rfl) count
  rw [take_open element isOpen]
  refine ⟨rfl, shaped, fun id => Option.ext fun other => ?_, ?_, (List.append_nil _).symm, rfl, rfl⟩
  rotate_left
  -- what is left was in the list, or is the slot shut and not yet popped
  · intro kept there
    have inside : kept ∈ m.slots.set place shut := by
      have : kept ∈ (m.slots.set place shut).rdropWhile fun s => !s.isOpen := by
        change kept ∈ (if _ then _ else _) at there
        split at there
        · exact (List.mem_filter.mp there).1
        · exact there
      exact (List.rdropWhile_prefix _ _).subset this
    rcases (mem_set_iff_of_sorted shape.sorted element (show shut.id = slot.id from rfl) kept).mp
      inside with rfl | ⟨old, _⟩
    · exact .inl ⟨slot, List.mem_of_getElem? element, rfl⟩
    · exact .inl ⟨kept, old, rfl⟩
  -- what a lookup finds is what is open still
  rw [shaped.lookup_eq_some_iff, ← and_assoc, ← List.mem_filter]
  show other ∈ List.filter (·.isOpen) (if _ then _ else _) ∧ _ ↔ _
  rw [same, mem_open_set shape.sorted element (show shut.id = slot.id from rfl) rfl]
  split
  · next here =>
    subst here
    simp
  · next elsewhere =>
    rw [shape.lookup_eq_some_iff]
    constructor
    · rintro ⟨⟨there, opens, _⟩, equal⟩
      exact ⟨there, opens, equal⟩
    · rintro ⟨there, opens, equal⟩
      exact ⟨⟨there, opens, fun back => elsewhere (equal.symm.trans back)⟩, equal⟩

/-- The new slot goes where its id belongs, and the last slot is open as before. -/
private theorem Shape.slots_openSlot {m : Mail} (shape : m.Shape) {id : Nat} (check : Check)
    (absent : ∀ slot ∈ m.slots, slot.id ≠ id) :
    let slots := (m.openSlot id check).slots
    slots.Perm (⟨id, true, none, check, none⟩ :: m.slots) ∧ Slice.Sorted Slot.id slots ∧
      ∀ last, slots.getLast? = some last → last.isOpen = true := by
  intro slots
  let slot : Slot := ⟨id, true, none, check, none⟩
  by_cases newest : (m.slots.getLast?.all fun last => decide (last.id < id)) = true
  · have pushed : slots = m.slots ++ [slot] := if_pos newest
    rw [pushed]
    refine ⟨List.perm_append_comm, List.pairwise_append.mpr ⟨shape.sorted, by simp, ?_⟩, ?_⟩
    · intro before member after single
      obtain rfl := List.mem_singleton.mp single
      obtain ⟨front, last, whole⟩ :=
        (List.eq_nil_or_concat' m.slots).resolve_left (List.ne_nil_of_mem member)
      have below : last.id < id := by simpa [whole] using newest
      have sorted := shape.sorted
      rw [whole] at sorted member
      rcases List.mem_append.mp member with inside | edge
      · exact lt_trans ((List.pairwise_append.mp sorted).2.2 before inside last (by simp)) below
      · obtain rfl := List.mem_singleton.mp edge
        exact below
    · intro last found
      rw [List.getLast?_append] at found
      obtain rfl : slot = last := by simpa using found
      rfl
  · have inserted : slots = m.slots.insertIdx
        (m.slots.takeWhile fun other => decide (other.id < id)).length slot := by
      show (if _ then _ else _) = _
      rw [if_neg newest, Slice.partitionPoint_sorted id m.slots shape.sorted]
    have within : (m.slots.takeWhile fun other => decide (other.id < id)).length ≤
        m.slots.length := (List.takeWhile_prefix _).length_le
    rw [inserted]
    refine ⟨List.perm_insertIdx _ _ within, Slice.sorted_insertIdx slot m.slots shape.sorted absent,
      ?_⟩
    intro last found
    have : last ∈ m.slots.insertIdx
        (m.slots.takeWhile fun other => decide (other.id < id)).length slot :=
      List.mem_of_getLast? found
    obtain ⟨tail, final, whole⟩ : ∃ front final, m.slots = front ++ [final] := by
      rcases List.eq_nil_or_concat' m.slots with empty | ⟨front, final, whole⟩
      · rw [empty] at newest
        simp at newest
      · exact ⟨front, final, whole⟩
    -- the newest slot's id is above the new one's, so it stays last
    have above : ¬ final.id < id := by simpa [whole] using newest
    have stops : (m.slots.takeWhile fun other => decide (other.id < id)).length <
        m.slots.length := by
      refine lt_of_le_of_ne within fun equal => above ?_
      have everything := (List.takeWhile_prefix fun other : Slot => decide (other.id < id)).eq_of_length
        equal
      have := List.takeWhile_eq_self_iff.mp everything final (by simp [whole])
      simpa using this
    rw [List.getLast?_eq_getElem?, List.length_insertIdx_of_le_length within,
      Nat.add_sub_cancel, List.getElem?_insertIdx_of_gt stops] at found
    exact shape.last_open last (by rw [List.getLast?_eq_getElem?, found])

/-- Opening a slot adds an unanswered one to the map. -/
theorem Shape.openSlot {m : Mail} (shape : m.Shape) {id : Nat} (check : Check)
    (absent : ∀ slot ∈ m.slots, slot.id ≠ id) :
    Updated m (m.openSlot id check) id (some ⟨id, true, none, check, none⟩) [] := by
  let slots := (m.openSlot id check).slots
  obtain ⟨permuted, sorted, last⟩ := shape.slots_openSlot check absent
  have shaped : (m.openSlot id check).Shape := by
    refine ⟨sorted, ?_, last, ?_⟩
    · show m.opened + 1 = (slots.filter (·.isOpen)).length
      rw [(permuted.filter _).length_eq, List.filter_cons_of_pos rfl, List.length_cons,
        ← shape.counted]
    · show slots.length - (m.opened + 1) ≤ m.opened + 1
      have := shape.few_closed
      rw [permuted.length_eq, List.length_cons]
      omega
  refine ⟨shaped, fun other => Option.ext fun found => ?_, ?_, (List.append_nil _).symm, rfl, rfl⟩
  rotate_left
  · intro kept member
    rcases List.mem_cons.mp (permuted.mem_iff.mp member) with rfl | there
    · exact .inr ⟨rfl, rfl⟩
    · exact .inl ⟨kept, there, rfl⟩
  rw [shaped.lookup_eq_some_iff]
  show found ∈ slots ∧ _ ↔ _
  rw [permuted.mem_iff, List.mem_cons]
  split
  · next here =>
    subst here
    constructor
    · rintro ⟨rfl | there, _, equal⟩
      · rfl
      · exact absurd equal (absent found there)
    · rintro ⟨⟩
      exact ⟨.inl rfl, rfl, rfl⟩
  · next elsewhere =>
    rw [shape.lookup_eq_some_iff]
    constructor
    · rintro ⟨rfl | there, opens, equal⟩
      · exact absurd equal.symm elsewhere
      · exact ⟨there, opens, equal⟩
    · rintro ⟨there, opens, equal⟩
      exact ⟨.inr there, opens, equal⟩

theorem Updated.refl {m : Mail} (shape : m.Shape) (id : Nat) :
    Updated m m id (m.lookup id) [] := by
  refine ⟨shape, fun other => ?_, fun kept there => .inl ⟨kept, there, rfl⟩,
    (List.append_nil _).symm, rfl, rfl⟩
  split
  · next here => rw [here]
  · rfl

/-- Collecting hands over a reply that arrived, and ends the request. Before one arrives only
the waker kept changes. -/
theorem Shape.collect {m : Mail} (shape : m.Shape) (id : Nat) (waker : Option Waker) :
    (∃ slot v, m.lookup id = some slot ∧ slot.value = some v ∧
      (m.collect id waker).1 = some v ∧ Updated m (m.collect id waker).2 id none []) ∨
    ((m.lookup id).bind Slot.value = none ∧ (m.collect id waker).1 = none ∧
      ∃ kept, Updated m (m.collect id waker).2 id
        ((m.lookup id).map fun slot => { slot with waker := kept }) []) := by
  unfold Mail.collect
  obtain ⟨place, slot, found, element, isOpen, _, looked⟩ | ⟨found, _, looked⟩ :=
    shape.position_bind id
  · obtain rfl := lookup_id looked
    rw [found, looked]
    dsimp only
    split
    · next arrived =>
      obtain ⟨v, value⟩ := Option.isSome_iff_exists.mp arrived
      obtain ⟨handed, updated⟩ := shape.take element isOpen
      exact .inl ⟨slot, v, rfl, value, handed.trans value, updated⟩
    · next missing =>
      have value : slot.value = none := Option.not_isSome_iff_eq_none.mp missing
      refine .inr ⟨value, ?_⟩
      have same := Updated.refl shape slot.id
      rw [looked] at same
      split
      · next waker =>
        split
        · exact ⟨rfl, slot.waker, same⟩
        · exact ⟨rfl, some waker, shape.set_open element isOpen rfl isOpen⟩
      · exact ⟨rfl, slot.waker, same⟩
  · rw [found, looked]
    refine .inr ⟨rfl, rfl, none, ?_⟩
    have same := Updated.refl shape id
    rwa [looked] at same

/-- A request polled in vain keeps the waker it was polled with, if there was one. -/
theorem Shape.collect_waits {m : Mail} (shape : m.Shape) {id : Nat} {slot : Slot}
    (found : m.lookup id = some slot) (waits : slot.value = none) (waker : Option Waker) :
    (m.collect id waker).1 = none ∧
      Updated m (m.collect id waker).2 id (some { slot with waker := waker.or slot.waker }) [] := by
  have same := Updated.refl shape id
  rw [found] at same
  unfold Mail.collect
  obtain ⟨place, other, position, element, isOpen, _, looked⟩ | ⟨_, _, looked⟩ :=
    shape.position_bind id
  · rw [found] at looked
    obtain rfl := Option.some.inj looked
    obtain rfl := lookup_id found
    have missing : ¬ slot.value.isSome = true := by simp [waits]
    rw [position]
    dsimp only
    rw [if_neg missing]
    cases waker with
    | none => exact ⟨rfl, same⟩
    | some waker =>
      dsimp only [Option.some_or]
      split
      · next kept =>
        refine ⟨rfl, ?_⟩
        rw [← kept]
        exact same
      · exact ⟨rfl, shape.set_open element isOpen rfl isOpen⟩
  · rw [found] at looked
    cases looked

/-- Closing ends the request, and reports it if no reply arrived. -/
theorem Shape.close {m : Mail} (shape : m.Shape) (id : Nat) :
    Updated m (m.close id) id none
      (if (m.lookup id).any fun slot => slot.value.isNone then [id] else []) := by
  unfold Mail.close
  obtain ⟨place, slot, found, element, isOpen, position, looked⟩ | ⟨found, position, looked⟩ :=
    shape.position_bind id
  · obtain rfl := lookup_id looked
    rw [position, looked]
    obtain ⟨handed, updated⟩ := shape.take element isOpen
    dsimp only
    cases taken : m.take place with
    | mk value m' =>
      rw [taken] at handed updated
      dsimp only at handed updated ⊢
      rw [Option.any_some, ← handed]
      cases value with
      | some v => exact updated
      | none =>
        refine ⟨⟨updated.shape.sorted, updated.shape.counted, updated.shape.last_open,
          updated.shape.few_closed⟩, updated.lookup, updated.ids, ?_, updated.next, updated.driver⟩
        show m'.closed ++ [slot.id] = _
        rw [updated.closed]
        simp
  · rw [position, looked]
    have same := Updated.refl shape id
    rwa [looked] at same

/-- Delivering fills the slot of a request that still waits, if its check accepts the value;
otherwise nothing changes. -/
theorem Shape.deliver {m : Mail} (shape : m.Shape) (reply : ReplyHandle) (value : Value)
    (own : reply.driver = m.driver) :
    match m.lookup reply.id with
    | none => m.deliver reply value = some (.gone, m)
    | some slot =>
      match slot.check value with
      | none => m.deliver reply value = none
      | some (.error error) => m.deliver reply value = some (.refused reply error, m)
      | some (.ok ()) => ∃ m', m.deliver reply value = some (.delivered slot.waker, m') ∧
          Updated m m' reply.id (some { slot with value := some value, waker := none }) [] := by
  unfold Mail.deliver
  rw [if_neg (not_not.mpr own)]
  obtain ⟨place, slot, found, element, isOpen, _, looked⟩ | ⟨found, _, looked⟩ :=
    shape.position_bind reply.id
  · rw [found, looked]
    dsimp only
    cases slot.check value with
    | none => rfl
    | some verdict =>
      cases verdict with
      | error error => rfl
      | ok _ =>
        refine ⟨_, rfl, ?_⟩
        rw [← lookup_id looked]
        exact shape.set_open element isOpen rfl isOpen
  · rw [found, looked]

end Mail

end SansEffort
