import SansEffort.Mail
import SansEffort.Library.Transition
import Mathlib.Data.Finmap

/-!
# The mailbox as a map

What the mailbox is for: a finite map from the open requests to their replies, and the ids given up
since they were last asked for. `Mail` keeps it in sorted slots, and the two return the same under
every sequence of operations (`the_mailbox_behaves_as_a_map_of_open_requests`).
-/

namespace SansEffort

/-- An operation on a mailbox, with what it is given. -/
inductive MailOp
  | mint
  | openSlot (id : Nat) (check : Check)
  | deliver (reply : ReplyHandle) (value : Value)
  | collect (id : Nat) (waker : Option Waker)
  | close (id : Nat)
  | takeClosed

/-- What it returns. A delivery that is stored gives `W`. -/
inductive Returned (W : Type)
  | minted (reply : ReplyHandle)
  | done
  | delivered (waker : W)
  | gone
  | refused (reply : ReplyHandle) (error : DecodeError)
  | collected (value : Option Value)
  | closed (ids : List Nat)

/-- All but the waker. -/
def Returned.unwoken {W : Type} : Returned W → Returned Unit
  | .minted reply => .minted reply
  | .done => .done
  | .delivered _ => .delivered ()
  | .gone => .gone
  | .refused reply error => .refused reply error
  | .collected value => .collected value
  | .closed ids => .closed ids

/-! ### The two sides -/

def Delivery.returned : Delivery → Returned (Option Waker)
  | .delivered waker => .delivered waker
  | .gone => .gone
  | .refused reply error => .refused reply error

def Mail.act (m : Mail) : MailOp → Option (Returned (Option Waker) × Mail)
  | .mint => some (.minted m.mint.1, m.mint.2)
  | .openSlot id check => some (.done, m.openSlot id check)
  | .deliver reply value =>
    (m.deliver reply value).map fun delivered => (delivered.1.returned, delivered.2)
  | .collect id waker => some (.collected (m.collect id waker).1, (m.collect id waker).2)
  | .close id => some (.done, m.close id)
  | .takeClosed => some (.closed m.takeClosed.1, m.takeClosed.2)

/-- An open request: the check its reply has to pass, and the reply once there is one. -/
structure Request where
  check : Check
  reply : Option Value

structure Requests where
  driver : Nat
  waiting : Finmap fun _ : Nat => Request
  closed : List Nat
  next : Nat

namespace Requests

def new (driver : Nat) : Requests := ⟨driver, ∅, [], 1⟩

/-- `none` is a panic: a handle of another driver, or a value of another kind. -/
def act (r : Requests) : MailOp → Option (Returned Unit × Requests)
  | .mint => some (.minted ⟨r.driver, r.next⟩, { r with next := r.next + 1 })
  | .openSlot id check => some (.done, { r with waiting := r.waiting.insert id ⟨check, none⟩ })
  | .deliver reply value =>
    if reply.driver ≠ r.driver then none
    else match r.waiting.lookup reply.id with
      | none => some (.gone, r)
      | some request => (request.check value).map fun
        | .ok () =>
          (.delivered (), { r with
            waiting := r.waiting.insert reply.id { request with reply := some value } })
        | .error error => (.refused reply error, r)
  | .collect id _ =>
    match (r.waiting.lookup id).bind Request.reply with
    | some value => some (.collected (some value), { r with waiting := r.waiting.erase id })
    | none => some (.collected none, r)
  | .close id =>
    let unanswered := (r.waiting.lookup id).any fun request => request.reply.isNone
    some (.done, { r with
      waiting := r.waiting.erase id
      closed := r.closed ++ if unanswered then [id] else [] })
  | .takeClosed => some (.closed r.closed, { r with closed := [] })

end Requests

/-! ### A run, with what each operation returned -/

/-- Take one operation, and keep it with what it returned, newest first. -/
def recording {S W : Type} (act : S → MailOp → Option (Returned W × S))
    (held : S × List (MailOp × Returned W)) (op : MailOp) :
    Option (S × List (MailOp × Returned W)) :=
  (act held.1 op).map fun acted => (acted.2, (op, acted.1) :: held.2)

/-- The ids that are opened, in order. -/
def opens (ops : List MailOp) : List Nat :=
  ops.filterMap fun
    | .openSlot id _ => some id
    | _ => none

/-- The waker of the last collect of `id` that passed one and found no value, unless a delivery has
returned it since. -/
def lastWaker (id : Nat) : List (MailOp × Returned (Option Waker)) → Option Waker
  | [] => none
  | (.collect other waker, .collected none) :: before =>
    if other = id then waker.or (lastWaker id before) else lastWaker id before
  | (.deliver reply _, .delivered _) :: before =>
    if reply.id = id then none else lastWaker id before
  | _ :: before => lastWaker id before

/-- What has been done since `id` was opened. -/
def sinceOpened (id : Nat) (done : List (MailOp × Returned (Option Waker))) :
    List (MailOp × Returned (Option Waker)) :=
  done.takeWhile fun
    | (.openSlot other _, _) => other != id
    | _ => true

/-! ### The wakers kept -/

/-- The request that an operation is about. -/
def MailOp.about : MailOp → Option Nat
  | .mint => none
  | .openSlot id _ => some id
  | .deliver reply _ => some reply.id
  | .collect id _ => some id
  | .close id => some id
  | .takeClosed => none

section

variable {id : Nat} {op : MailOp} {out : Returned (Option Waker)}
  {done : List (MailOp × Returned (Option Waker))}

/-- The waker kept for `id` after what was `done`. -/
def keptWaker (id : Nat) (done : List (MailOp × Returned (Option Waker))) : Option Waker :=
  lastWaker id (sinceOpened id done)

theorem keptWaker_elsewhere (away : op.about ≠ some id) :
    keptWaker id ((op, out) :: done) = keptWaker id done := by
  unfold keptWaker
  cases op with
  | openSlot other check =>
    have different : other ≠ id := fun same => away (congrArg some same)
    simp [sinceOpened, different, lastWaker]
  | deliver reply value =>
    have different : reply.id ≠ id := fun same => away (congrArg some same)
    cases out <;> simp [sinceOpened, different, lastWaker]
  | collect other waker =>
    have different : other ≠ id := fun same => away (congrArg some same)
    rcases out with _ | _ | _ | _ | _ | ⟨_ | _⟩ | _ <;> simp [sinceOpened, different, lastWaker]
  | mint | close _ | takeClosed => simp [sinceOpened, lastWaker]

theorem keptWaker_opened (check : Check) : keptWaker id ((.openSlot id check, out) :: done) = none := by
  simp [keptWaker, sinceOpened, lastWaker]

theorem keptWaker_collected (waker : Option Waker) :
    keptWaker id ((.collect id waker, .collected none) :: done) = waker.or (keptWaker id done) := by
  simp [keptWaker, sinceOpened, lastWaker]

theorem keptWaker_delivered {reply : ReplyHandle} (value : Value) (waker : Option Waker) :
    keptWaker reply.id ((.deliver reply value, .delivered waker) :: done) = none := by
  simp [keptWaker, sinceOpened, lastWaker]

theorem keptWaker_undelivered {reply : ReplyHandle} (value : Value)
    (kept : ∀ waker, out ≠ .delivered waker) :
    keptWaker id ((.deliver reply value, out) :: done) = keptWaker id done := by
  cases out with
  | delivered waker => exact absurd rfl (kept waker)
  | minted | done | gone | refused | collected | closed => simp [keptWaker, sinceOpened, lastWaker]

end

/-! ### One operation -/

/-- The map a mailbox stands for, and the wakers its slots keep, after what was `done`. -/
structure Mail.Models (m : Mail) (r : Requests) (done : List (MailOp × Returned (Option Waker))) :
    Prop where
  shape : m.Shape
  waiting : ∀ id, r.waiting.lookup id = (m.lookup id).map fun slot => ⟨slot.check, slot.value⟩
  wakers : ∀ id slot, m.lookup id = some slot → slot.waker = keptWaker id done
  opened : ∀ slot ∈ m.slots, slot.id ∈ opens (done.map Prod.fst)
  driver : r.driver = m.driver
  closed : r.closed = m.closed
  next : r.next = m.next

namespace Mail.Models

variable {m m' : Mail} {r r' : Requests} {done : List (MailOp × Returned (Option Waker))}

theorem new (driver : Nat) : (Mail.new driver).Models (.new driver) [] := by
  refine ⟨shape_new driver, fun id => ?_, fun id slot found => ?_, by simp [Mail.new], rfl, rfl, rfl⟩
  · rfl
  · cases found

theorem mem_opens {ops : List MailOp} {op : MailOp} {id : Nat} (member : id ∈ opens ops) :
    id ∈ opens (op :: ops) := by
  rw [opens, List.mem_filterMap] at member ⊢
  obtain ⟨other, there, opened⟩ := member
  exact ⟨other, List.mem_cons_of_mem _ there, opened⟩

/-- An operation that updates one request on both sides. -/
theorem updated (models : m.Models r done) {op : MailOp} {out : Returned (Option Waker)} {id : Nat}
    {slot : Option Slot} {closed : List Nat} (about : op.about = some id)
    (change : m.Updated m' id slot closed)
    (waiting : ∀ other, r'.waiting.lookup other =
      if other = id then slot.map fun slot => ⟨slot.check, slot.value⟩ else r.waiting.lookup other)
    (waker : ∀ kept, slot = some kept → kept.waker = keptWaker id ((op, out) :: done))
    (opened : slot.isSome = true → id ∈ opens ((op :: done.map Prod.fst)))
    (driver : r'.driver = r.driver) (reported : r'.closed = r.closed ++ closed)
    (next : r'.next = r.next) : m'.Models r' ((op, out) :: done) := by
  refine ⟨change.shape, fun other => ?_, fun other kept found => ?_, fun kept member => ?_,
    by rw [driver, models.driver, change.driver], by rw [reported, models.closed, change.closed],
    by rw [next, models.next, change.next]⟩
  · rw [waiting, change.lookup]
    split
    · rfl
    · exact models.waiting other
  · rw [change.lookup] at found
    split at found
    · next here => exact here ▸ waker kept found
    · next away =>
      rw [keptWaker_elsewhere (by rw [about]; exact fun same => away (Option.some.inj same).symm)]
      exact models.wakers other kept found
  · rcases change.ids kept member with ⟨old, there, same⟩ | ⟨rfl, opening⟩
    · exact same ▸ mem_opens (models.opened old there)
    · exact opened opening

/-- An operation that changes neither side. -/
theorem unchanged (models : m.Models r done) {op : MailOp} {out : Returned (Option Waker)}
    (wakers : ∀ id, keptWaker id ((op, out) :: done) = keptWaker id done) :
    m.Models r ((op, out) :: done) := by
  refine ⟨models.shape, models.waiting, fun id slot found => ?_, fun slot member => ?_,
    models.driver, models.closed, models.next⟩
  · rw [wakers]
    exact models.wakers id slot found
  · exact mem_opens (models.opened slot member)

theorem lookup_of_waiting (models : m.Models r done) {id : Nat} {slot : Slot}
    (found : m.lookup id = some slot) : r.waiting.lookup id = some ⟨slot.check, slot.value⟩ := by
  rw [models.waiting, found]
  rfl

theorem lookup_insert (r : Requests) (id other : Nat) (request : Request) :
    (r.waiting.insert id request).lookup other =
      if other = id then some request else r.waiting.lookup other := by
  split
  · next here => rw [here, Finmap.lookup_insert]
  · next away => exact Finmap.lookup_insert_of_ne _ away

theorem lookup_erase (r : Requests) (id other : Nat) :
    (r.waiting.erase id).lookup other = if other = id then none else r.waiting.lookup other := by
  split
  · next here => rw [here, Finmap.lookup_erase]
  · next away => exact Finmap.lookup_erase_ne away

theorem mint (models : m.Models r done) :
    m.mint.2.Models { r with next := r.next + 1 } ((.mint, .minted m.mint.1) :: done) := by
  refine ⟨⟨models.shape.sorted, models.shape.counted, models.shape.last_open,
    models.shape.few_closed⟩, models.waiting, fun id slot found => ?_, fun slot member => ?_,
    models.driver, models.closed, congrArg (· + 1) models.next⟩
  · rw [keptWaker_elsewhere (by simp [MailOp.about])]
    exact models.wakers id slot found
  · exact mem_opens (models.opened slot member)

theorem takeClosed (models : m.Models r done) :
    m.takeClosed.2.Models { r with closed := [] } ((.takeClosed, .closed m.takeClosed.1) :: done) := by
  refine ⟨⟨models.shape.sorted, models.shape.counted, models.shape.last_open,
    models.shape.few_closed⟩, models.waiting, fun id slot found => ?_, fun slot member => ?_,
    models.driver, rfl, models.next⟩
  · rw [keptWaker_elsewhere (by simp [MailOp.about])]
    exact models.wakers id slot found
  · exact mem_opens (models.opened slot member)

theorem openSlot (models : m.Models r done) {id : Nat} (check : Check)
    (once : id ∉ opens (done.map Prod.fst)) :
    (m.openSlot id check).Models { r with waiting := r.waiting.insert id ⟨check, none⟩ }
      ((.openSlot id check, .done) :: done) := by
  have absent : ∀ slot ∈ m.slots, slot.id ≠ id := fun slot member same =>
    once (same ▸ models.opened slot member)
  apply models.updated rfl (models.shape.openSlot check absent) (lookup_insert r id · _)
  · rintro kept ⟨⟩
    exact (keptWaker_opened check).symm
  · intro _
    exact List.mem_cons_self
  · rfl
  · exact (List.append_nil _).symm
  · rfl

theorem collect (models : m.Models r done) (id : Nat) (waker : Option Waker) :
    ∃ r', r.act (.collect id waker) = some (.collected (m.collect id waker).1, r') ∧
      (m.collect id waker).2.Models r'
        ((.collect id waker, .collected (m.collect id waker).1) :: done) := by
  dsimp only [Requests.act]
  cases found : m.lookup id with
  | none =>
    -- the request is not open, so its waker is not kept
    obtain ⟨_, _, looked, _⟩ | ⟨_, missing, _, change⟩ := models.shape.collect id waker
    · rw [found] at looked
      cases looked
    · rw [models.waiting, found, missing]
      rw [found] at change
      refine ⟨r, rfl, models.updated rfl change (fun other => ?_) nofun nofun rfl
        (List.append_nil _).symm rfl⟩
      split
      · next here =>
        rw [here, models.waiting, found]
        rfl
      · rfl
  | some slot =>
    rw [models.lookup_of_waiting found]
    cases answered : slot.value with
    | some value =>
      obtain ⟨other, v, looked, there, handed, change⟩ | ⟨missing, _⟩ :=
        models.shape.collect id waker
      · rw [found] at looked
        obtain rfl := Option.some.inj looked
        rw [answered] at there
        obtain rfl := Option.some.inj there
        rw [handed]
        exact ⟨_, rfl, models.updated rfl change (lookup_erase r id) nofun nofun rfl
          (List.append_nil _).symm rfl⟩
      · rw [found] at missing
        cases answered.symm.trans missing
    | none =>
      obtain ⟨missing, change⟩ := models.shape.collect_waits found answered waker
      rw [missing]
      refine ⟨r, rfl, models.updated rfl change (fun other => ?_) ?_ ?_ rfl
        (List.append_nil _).symm rfl⟩
      · split
        · next here =>
          rw [here, models.lookup_of_waiting found]
          rfl
        · rfl
      · rintro kept ⟨⟩
        rw [keptWaker_collected, ← models.wakers id slot found]
      · intro _
        rw [← lookup_id found]
        exact mem_opens (models.opened slot ((models.shape.lookup_eq_some_iff id slot).mp found).1)

theorem close (models : m.Models r done) (id : Nat) :
    ∃ r', r.act (.close id) = some (.done, r') ∧ (m.close id).Models r' ((.close id, .done) :: done) := by
  refine ⟨_, rfl, models.updated rfl (models.shape.close id) (lookup_erase r id) nofun nofun rfl ?_ rfl⟩
  rw [models.waiting, Option.any_map]

theorem deliver (models : m.Models r done) (reply : ReplyHandle) (value : Value) :
    match m.act (.deliver reply value) with
    -- nothing waits
    | none => r.act (.deliver reply value) = none
    | some (out, m') => ∃ r', r.act (.deliver reply value) = some (out.unwoken, r') ∧
        m'.Models r' ((.deliver reply value, out) :: done) ∧
        ∀ waker, out = .delivered waker → waker = keptWaker reply.id done := by
  dsimp only [Requests.act, Mail.act]
  by_cases own : reply.driver = m.driver
  · have delivered := models.shape.deliver reply value own
    rw [if_neg (by rw [models.driver]; exact not_not.mpr own)]
    -- an answer that is not `delivered` leaves the requests as they are
    have still : ∀ out : Returned (Option Waker), (∀ waker, out ≠ .delivered waker) →
        m.Models r ((.deliver reply value, out) :: done) := fun out kept =>
      models.unchanged fun _ => keptWaker_undelivered value kept
    cases found : m.lookup reply.id with
    | none =>
      simp only [found] at delivered
      rw [models.waiting, delivered, found]
      exact ⟨r, rfl, still _ (by simp [Delivery.returned]), by simp [Delivery.returned]⟩
    | some slot =>
      rw [models.lookup_of_waiting found]
      simp only [found] at delivered
      cases verdict : slot.check value with
      | none =>
        simp only [verdict] at delivered
        rw [delivered]
        simp [verdict]
      | some checked =>
        cases checked with
        | error error =>
          simp only [verdict] at delivered
          rw [delivered]
          simp only [verdict]
          exact ⟨r, rfl, still _ (by simp [Delivery.returned]), by simp [Delivery.returned]⟩
        | ok _ =>
          simp only [verdict] at delivered
          obtain ⟨m', delivered, change⟩ := delivered
          rw [delivered]
          simp only [verdict]
          -- the value is kept in place of the waker
          refine ⟨_, rfl, models.updated rfl change (lookup_insert r reply.id · _) ?_ ?_ rfl
            (List.append_nil _).symm rfl, ?_⟩
          · rintro kept ⟨⟩
            exact (keptWaker_delivered value _).symm
          · intro _
            rw [← lookup_id found]
            exact mem_opens
              (models.opened slot ((models.shape.lookup_eq_some_iff reply.id slot).mp found).1)
          · rintro waker ⟨⟩
            exact models.wakers reply.id slot found
  -- a handle of another driver's
  · have panics : m.deliver reply value = none := if_pos own
    rw [panics, if_pos (by rw [models.driver]; exact own)]
    rfl

/-- The map has as many requests as there are slots open. -/
theorem outstanding (models : m.Models r done) : m.outstanding = r.waiting.keys.card := by
  let ids := (m.slots.filter (·.isOpen)).map Slot.id
  have nodup : ids.Nodup := by
    have sorted := models.shape.sorted.sublist (List.filter_sublist (p := (·.isOpen)))
    exact (List.pairwise_map.mpr sorted).imp Nat.ne_of_lt
  have keys : r.waiting.keys = ids.toFinset := by
    ext id
    rw [Finmap.mem_keys, ← Finmap.lookup_isSome, models.waiting, Option.isSome_map,
      Mail.lookup_isSome_iff, List.mem_toFinset]
  rw [keys, List.toFinset_card_of_nodup nodup, List.length_map]
  exact models.shape.counted

/-- Every operation returns the same on both sides, and panics on both or on neither. -/
theorem act (models : m.Models r done) (op : MailOp)
    (once : (opens (op :: done.map Prod.fst)).Nodup) :
    (m.act op = none → r.act op = none) ∧ ∀ out m', m.act op = some (out, m') →
      ∃ r', r.act op = some (out.unwoken, r') ∧ m'.Models r' ((op, out) :: done) := by
  cases op with
  | mint =>
    refine ⟨by simp [Mail.act], ?_⟩
    rintro out m' ⟨⟩
    have minted : r.act .mint = some (.minted ⟨m.driver, m.next⟩, { r with next := r.next + 1 }) := by
      rw [Requests.act, models.driver, models.next]
    exact ⟨_, minted, models.mint⟩
  | openSlot id check =>
    refine ⟨by simp [Mail.act], ?_⟩
    rintro out m' ⟨⟩
    exact ⟨_, rfl, models.openSlot check (List.nodup_cons.mp once).1⟩
  | deliver reply value =>
    have delivered := models.deliver reply value
    refine ⟨fun panics => by simpa only [panics] using delivered, fun out m' acted => ?_⟩
    simp only [acted] at delivered
    obtain ⟨r', same, models', _⟩ := delivered
    exact ⟨r', same, models'⟩
  | collect id waker =>
    refine ⟨by simp [Mail.act], ?_⟩
    rintro out m' ⟨⟩
    exact models.collect id waker
  | close id =>
    refine ⟨by simp [Mail.act], ?_⟩
    rintro out m' ⟨⟩
    exact models.close id
  | takeClosed =>
    refine ⟨by simp [Mail.act], ?_⟩
    rintro out m' ⟨⟩
    have closed : r.act .takeClosed = some (.closed m.closed, { r with closed := [] }) := by
      rw [Requests.act, models.closed]
    exact ⟨_, closed, models.takeClosed⟩

end Mail.Models

/-! ### A run -/

/-- What was returned, but for the wakers. -/
def unwokenAll (done : List (MailOp × Returned (Option Waker))) : List (MailOp × Returned Unit) :=
  done.map fun entry => (entry.1, entry.2.unwoken)

/-- From states that correspond, the two sides go on alike. The operations still to come open other
ids than those done, each once. -/
theorem Mail.Models.run {m : Mail} {r : Requests} {done : List (MailOp × Returned (Option Waker))}
    (models : m.Models r done) (ops : List MailOp)
    (once : (opens (ops.reverse ++ done.map Prod.fst)).Nodup) :
    (Transition.run (recording Mail.act) (m, done) ops = none →
      Transition.run (recording Requests.act) (r, unwokenAll done) ops = none) ∧
    ∀ m' done', Transition.run (recording Mail.act) (m, done) ops = some (m', done') →
      ∃ r', Transition.run (recording Requests.act) (r, unwokenAll done) ops =
        some (r', unwokenAll done') ∧ m'.Models r' done' := by
  induction ops generalizing m r done with
  | nil =>
    refine ⟨by simp, ?_⟩
    rintro m' done' ⟨⟩
    exact ⟨r, rfl, models⟩
  | cons op rest ih =>
    rw [List.reverse_cons, List.append_assoc, List.singleton_append] at once
    have first : (opens (op :: done.map Prod.fst)).Nodup := by
      rw [opens, List.filterMap_append] at once
      exact (List.nodup_append.mp once).2.1
    obtain ⟨panics, goesOn⟩ := models.act op first
    rw [Transition.run_cons, Transition.run_cons, recording, recording]
    cases acted : m.act op with
    | none =>
      rw [panics acted]
      exact ⟨fun _ => rfl, by simp⟩
    | some taken =>
      obtain ⟨out, m'⟩ := taken
      obtain ⟨r', same, models'⟩ := goesOn out m' acted
      rw [same]
      exact ih models' once

/-- A mailbox behaves as a map from the open requests to their replies, whatever is done to it, if
no id is opened twice: each operation returns what it returns on the map, `outstanding` is the map's
size, and a delivery that is stored returns the waker the open request was last polled with. The
slots keep their shape. -/
theorem mailbox_is_a_map (driver : Nat) (ops : List MailOp) (once : (opens ops).Nodup) :
    (Transition.run (recording Mail.act) (Mail.new driver, []) ops = none →
      Transition.run (recording Requests.act) (Requests.new driver, []) ops = none) ∧
    ∀ m done, Transition.run (recording Mail.act) (Mail.new driver, []) ops = some (m, done) →
      ∃ r, Transition.run (recording Requests.act) (Requests.new driver, []) ops =
          some (r, done.map fun entry => (entry.1, entry.2.unwoken)) ∧
        (∀ id, r.waiting.lookup id = (m.lookup id).map fun slot => ⟨slot.check, slot.value⟩) ∧
        m.closed = r.closed ∧ m.outstanding = r.waiting.keys.card ∧ m.Shape ∧
        ∀ reply value waker m', m.deliver reply value = some (.delivered waker, m') →
          waker = lastWaker reply.id (sinceOpened reply.id done) := by
  have nodup : (opens (ops.reverse ++ [])).Nodup := by
    rw [List.append_nil, opens, List.filterMap_reverse]
    exact List.nodup_reverse.mpr once
  obtain ⟨panics, goesOn⟩ := (Mail.Models.new driver).run ops nodup
  refine ⟨panics, fun m done ran => ?_⟩
  obtain ⟨r, same, models⟩ := goesOn m done ran
  refine ⟨r, same, models.waiting, models.closed.symm, models.outstanding, models.shape, ?_⟩
  intro reply value waker m' delivered
  have kept := models.deliver reply value
  rw [show m.act (.deliver reply value) = some (.delivered waker, m') by
    rw [Mail.act, delivered]; rfl] at kept
  obtain ⟨_, _, _, same⟩ := kept
  exact same waker rfl

theorem mailbox_is_a_map_out_of_order :
    ∃ m done, Transition.run (recording Mail.act) (Mail.new 3, [])
        [.mint, .mint, .openSlot 2 (fun _ => some (.ok ())), .openSlot 1 (fun _ => some (.ok ())),
          .collect 1 (some 7), .deliver ⟨3, 2⟩ .unit, .close 2] = some (m, done) ∧
      m.Shape ∧ lastWaker 1 (sinceOpened 1 done) = some 7 := by
  obtain ⟨_, _, _, _, _, shape, _⟩ := (mailbox_is_a_map 3
    [.mint, .mint, .openSlot 2 (fun _ => some (.ok ())), .openSlot 1 (fun _ => some (.ok ())),
      .collect 1 (some 7), .deliver ⟨3, 2⟩ .unit, .close 2] (by decide)).2 _ _ rfl
  exact ⟨_, _, rfl, shape, rfl⟩

/-- A waker passed before the request was opened is not kept. -/
theorem early_waker_is_not_kept :
    ¬ ∀ (driver : Nat) (ops : List MailOp), (opens ops).Nodup → ∀ m done,
      Transition.run (recording Mail.act) (Mail.new driver, []) ops = some (m, done) →
      ∀ reply value waker m', m.deliver reply value = some (.delivered waker, m') →
        waker = lastWaker reply.id done := by
  intro holds
  have returned := holds 3 [.mint, .collect 1 (some 7), .openSlot 1 fun _ => some (.ok ())]
    (by decide) _ _ rfl ⟨3, 1⟩ .unit none _ rfl
  have kept : lastWaker 1 [(.openSlot 1 fun _ => some (.ok ()), .done),
      (.collect 1 (some 7), .collected none), (.mint, .minted ⟨3, 1⟩)] = some 7 := rfl
  cases returned.trans kept

end SansEffort
