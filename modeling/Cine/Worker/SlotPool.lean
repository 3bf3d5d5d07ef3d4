import Cine.Lib.Machine
import Mathlib.Data.List.Nodup
import Mathlib.Data.List.Range
import Mathlib.Data.List.Perm.Basic

/-!
# The slots of the sandbox worker

`sandbox-worker/slots.ts`.  A pool hands out its items one by one; who comes when
none is free waits, and an item that is given back goes to the first waiter
without passing through the free list.  `withSlot` holds one item for the whole
of a job and keeps it for good when the job reports a container that it could
not remove.

* The pool: `acquire`, and `giveBack`, which is `release` behind its guard.
  Who asks gets the next ticket, and a lease has the ticket of who asked.
* The steps of `PoolState`: callers of `acquire` may release their lease any
  number of times, jobs report leaks and settle.
* `PoolState.Inv` is what every step keeps.  The tickets of the leases followed
  by those of the waiters are the tickets in the order of asking; the free items
  and the items of the leases that are not released are the items of the pool.
-/

namespace Cine.Worker

open Cine.Lib

/-! ## The pool -/

/-- Who has a lease: a caller of `acquire`, or a job in `withSlot` with the
containers it reported and whether its promise is settled. -/
inductive Holder
  | caller
  | job (leaked : List String) (settled : Bool)
deriving DecidableEq, Repr

structure Lease (T : Type*) where
  ticket : Nat
  holder : Holder
  item : T
  released : Bool
deriving DecidableEq, Repr

/-- Someone who waits for an item. -/
structure Waiter where
  ticket : Nat
  isJob : Bool
deriving DecidableEq, Repr

structure SlotPool (T : Type*) where
  free : List T
  waiters : List Waiter
deriving DecidableEq, Repr

/-- A pool with its leases, and the next ticket. -/
structure PoolState (T : Type*) where
  pool : SlotPool T
  leases : List (Lease T)
  next : Nat
deriving DecidableEq, Repr

variable {T : Type*}

/-- The constructor of `SlotPool`. -/
def SlotPool.new (items : List T) : Except String (SlotPool T) :=
  match items with
  | [] => .error "SlotPool cần ít nhất một khe"
  | _ => .ok { free := items, waiters := [] }

/-- `this.lease(item)`, for who asked. -/
def Waiter.lease (w : Waiter) (item : T) : Lease T :=
  { ticket := w.ticket
    holder := if w.isJob then .job [] false else .caller
    item := item
    released := false }

namespace PoolState

/-- `acquire`: the first free item, or a place behind the other waiters. -/
def acquire (s : PoolState T) (isJob : Bool) : PoolState T :=
  let w : Waiter := ⟨s.next, isJob⟩
  match s.pool.free with
  | item :: free =>
    { pool := { s.pool with free := free }
      leases := s.leases ++ [w.lease item]
      next := s.next + 1 }
  | [] =>
    { s with
      pool := { s.pool with waiters := s.pool.waiters ++ [w] }
      next := s.next + 1 }

/-- The item goes to the first waiter, or back to the free ones. -/
def giveBack (s : PoolState T) (item : T) : PoolState T :=
  match s.pool.waiters with
  | w :: waiters =>
    { s with
      pool := { s.pool with waiters := waiters }
      leases := s.leases ++ [w.lease item] }
  | [] => { s with pool := { s.pool with free := s.pool.free ++ [item] } }

/-- Change the lease of a ticket. -/
def updateLease (s : PoolState T) (ticket : Nat) (f : Lease T → Lease T) : PoolState T :=
  { s with leases := s.leases.map fun l => if l.ticket = ticket then f l else l }

def leaseOf (s : PoolState T) (ticket : Nat) : Option (Lease T) :=
  s.leases.find? fun l => l.ticket = ticket

end PoolState

/-- `onLeak(names)` of the job that runs on the lease. -/
def Lease.onLeak (names : List String) (l : Lease T) : Lease T :=
  match l.holder with
  | .job leaked false => { l with holder := .job (leaked ++ names) false }
  | _ => l

/-- The guard of `release` has been passed. -/
def Lease.release (l : Lease T) : Lease T :=
  { l with released := true }

/-- The promise of the job is settled. -/
def Lease.settle (l : Lease T) : Lease T :=
  match l.holder with
  | .job leaked _ => { l with holder := .job leaked true }
  | .caller => l

/-! ## The steps -/

/-- How the promise of a job settles.  The `finally` of `withSlot` does not look
at it. -/
inductive JobEnd
  | value
  | thrown
deriving DecidableEq, Repr

inductive PoolAction
  /-- Somebody calls `acquire`. -/
  | acquire
  /-- Who has the lease of the ticket calls its `release`. -/
  | release (ticket : Nat)
  /-- Somebody calls `withSlot`. -/
  | withSlot
  /-- The job of the ticket reports containers that it could not remove. -/
  | onLeak (ticket : Nat) (names : List String)
  /-- The job of the ticket ends. -/
  | settle (ticket : Nat) (jobEnd : JobEnd)
deriving DecidableEq, Repr

namespace PoolState

/-- `release` of the lease of a ticket.  Nobody has the lease of a job but
`withSlot`, and a ticket that waits has no lease yet. -/
def release (s : PoolState T) (ticket : Nat) : PoolState T :=
  match s.leaseOf ticket with
  | none => s
  | some l =>
    match l.holder with
    | .job _ _ => s
    | .caller =>
      if l.released then s else (s.updateLease ticket Lease.release).giveBack l.item

/-- A report of the job that runs on the lease of a ticket. -/
def report (s : PoolState T) (ticket : Nat) (names : List String) : PoolState T :=
  match s.leaseOf ticket with
  | none => s
  | some _ => s.updateLease ticket (Lease.onLeak names)

/-- The `finally` of `withSlot`: the slot of a job that leaked is kept back. -/
def settle (s : PoolState T) (ticket : Nat) : PoolState T :=
  match s.leaseOf ticket with
  | none => s
  | some l =>
    match l.holder with
    | .job leaked false =>
      if leaked = [] then
        (s.updateLease ticket fun l => l.settle.release).giveBack l.item
      else s.updateLease ticket Lease.settle
    | _ => s

def step (s : PoolState T) : PoolAction → PoolState T
  | .acquire => s.acquire false
  | .release ticket => s.release ticket
  | .withSlot => s.acquire true
  | .onLeak ticket names => s.report ticket names
  | .settle ticket _ => s.settle ticket

/-- A new pool, before anybody asked for an item. -/
def start (pool : SlotPool T) : PoolState T :=
  { pool := pool, leases := [], next := 0 }

/-- The state after some steps. -/
def run (s : PoolState T) (actions : List PoolAction) : PoolState T :=
  actions.foldl step s

/-! ## Where the items are -/

/-- The items of the leases that `p` selects. -/
def itemsOf (p : Lease T → Bool) (leases : List (Lease T)) : List T :=
  (leases.filter p).map Lease.item

end PoolState

/-- The lease still has its item. -/
def Lease.isOut (l : Lease T) : Bool := !l.released

/-- The lease has its item, and its job is over: the item is quarantined. -/
def Lease.isQuarantined (l : Lease T) : Bool :=
  !l.released && match l.holder with
    | .job _ settled => settled
    | .caller => false

/-- The lease has its item and somebody works on it. -/
def Lease.isLive (l : Lease T) : Bool :=
  !l.released && !l.isQuarantined

namespace PoolState

def held (s : PoolState T) : List T := itemsOf Lease.isLive s.leases

def quarantined (s : PoolState T) : List T := itemsOf Lease.isQuarantined s.leases

/-- The items that some lease still has. -/
def out (s : PoolState T) : List T := itemsOf Lease.isOut s.leases

@[simp] theorem itemsOf_nil (p : Lease T → Bool) : itemsOf p [] = [] := rfl

@[simp] theorem itemsOf_cons (p : Lease T → Bool) (l : Lease T) (ls : List (Lease T)) :
    itemsOf p (l :: ls) = if p l then l.item :: itemsOf p ls else itemsOf p ls := by
  unfold itemsOf
  rw [List.filter_cons]
  split_ifs <;> rfl

@[simp] theorem itemsOf_append (p : Lease T → Bool) (ls ls' : List (Lease T)) :
    itemsOf p (ls ++ ls') = itemsOf p ls ++ itemsOf p ls' := by
  unfold itemsOf
  rw [List.filter_append, List.map_append]

theorem mem_itemsOf {p : Lease T → Bool} {ls : List (Lease T)} {x : T} :
    x ∈ itemsOf p ls ↔ ∃ l ∈ ls, p l = true ∧ l.item = x := by
  unfold itemsOf
  simp only [List.mem_map, List.mem_filter, and_assoc]

theorem held_quarantined_perm (s : PoolState T) : (s.held ++ s.quarantined).Perm s.out := by
  unfold held quarantined out
  induction s.leases with
  | nil => exact .refl _
  | cons l ls ih =>
    rw [itemsOf_cons, itemsOf_cons, itemsOf_cons]
    by_cases hr : l.released = true
    · simpa [Lease.isLive, Lease.isQuarantined, Lease.isOut, hr] using ih
    · have hr : l.released = false := Bool.eq_false_iff.2 hr
      by_cases hq : l.isQuarantined = true
      · simp only [Lease.isLive, Lease.isOut, hr, hq, Bool.not_false, Bool.not_true, Bool.and_false,
          Bool.false_eq_true, if_false, if_true]
        exact List.perm_middle.trans (ih.cons _)
      · simp only [Lease.isLive, Lease.isOut, hr, hq, Bool.not_false, Bool.and_self,
          Bool.false_eq_true, if_false, if_true, List.cons_append]
        exact ih.cons _

theorem updateLease_split {s : PoolState T} (hnd : (s.leases.map Lease.ticket).Nodup)
    {l : Lease T} (hl : l ∈ s.leases) :
    ∃ l₁ l₂, s.leases = l₁ ++ l :: l₂ ∧
      ∀ f, (s.updateLease l.ticket f).leases = l₁ ++ f l :: l₂ := by
  obtain ⟨l₁, l₂, heq⟩ := List.append_of_mem hl
  refine ⟨l₁, l₂, heq, fun f => ?_⟩
  rw [heq, List.map_append, List.map_cons, List.nodup_middle, List.nodup_cons,
    List.mem_append] at hnd
  have hne : ∀ m, m ∈ l₁ ∨ m ∈ l₂ → m.ticket ≠ l.ticket := by
    intro m hm hticket
    refine hnd.1 (hm.imp ?_ ?_)
    · exact fun h => List.mem_map.2 ⟨m, h, hticket⟩
    · exact fun h => List.mem_map.2 ⟨m, h, hticket⟩
  have hsame : ∀ ls : List (Lease T), (∀ m ∈ ls, m.ticket ≠ l.ticket) →
      ls.map (fun m => if m.ticket = l.ticket then f m else m) = ls := by
    intro ls h
    refine (List.map_congr_left fun m hm => if_neg (h m hm)).trans ?_
    exact List.map_id ls
  unfold updateLease
  dsimp only
  rw [heq, List.map_append, List.map_cons, if_pos rfl, hsame l₁ fun m hm => hne m (Or.inl hm),
    hsame l₂ fun m hm => hne m (Or.inr hm)]

/-! ## What every step keeps -/

/-- No lease on an item is younger than one that still has it. -/
def Young (leases : List (Lease T)) : Prop :=
  ∀ l ∈ leases, l.released = false → ∀ l' ∈ leases, l'.item = l.item → l'.ticket ≤ l.ticket

structure Inv (items : List T) (s : PoolState T) : Prop where
  /-- The tickets are served in the order of asking, and none is lost. -/
  order : s.leases.map Lease.ticket ++ s.pool.waiters.map Waiter.ticket = List.range s.next
  waiting : s.pool.waiters ≠ [] → s.pool.free = []
  parts : (s.pool.free ++ s.out).Perm items
  /-- A job gives its slot back when it is over and reported no leak. -/
  jobs : ∀ l ∈ s.leases, ∀ leaked settled, l.holder = .job leaked settled →
    (l.released = true ↔ settled = true ∧ leaked = [])
  young : Young s.leases

section Keep

variable {items : List T} {s : PoolState T}

namespace Inv

theorem tickets_nodup (h : Inv items s) : (s.leases.map Lease.ticket).Nodup := by
  have hnd : (s.leases.map Lease.ticket ++ s.pool.waiters.map Waiter.ticket).Nodup := by
    rw [h.order]
    exact List.nodup_range
  exact (List.nodup_append.1 hnd).1

variable {l : Lease T}

theorem ticket_lt (h : Inv items s) (hl : l ∈ s.leases) {w : Waiter} (hw : w ∈ s.pool.waiters) :
    l.ticket < w.ticket := by
  have hlt : (s.leases.map Lease.ticket ++ s.pool.waiters.map Waiter.ticket).Pairwise
      (· < ·) := by
    rw [h.order]
    exact List.pairwise_lt_range
  exact (List.pairwise_append.1 hlt).2.2 _ (List.mem_map_of_mem hl) _ (List.mem_map_of_mem hw)

theorem ticket_lt_next (h : Inv items s) (hl : l ∈ s.leases) : l.ticket < s.next := by
  rw [← List.mem_range, ← h.order]
  exact List.mem_append_left _ (List.mem_map_of_mem hl)

theorem out_unique (h : Inv items s) {l' : Lease T} (hl : l ∈ s.leases) (hl' : l' ∈ s.leases)
    (hout : l.released = false) (hout' : l'.released = false) (hitem : l'.item = l.item) :
    l' = l := by
  have hle := h.young l hl hout l' hl' hitem
  have hge := h.young l' hl' hout' l hl hitem.symm
  exact List.inj_on_of_nodup_map h.tickets_nodup hl' hl (le_antisymm hle hge)

theorem not_free (h : Inv items s) (hnd : items.Nodup) (hl : l ∈ s.leases)
    (hout : l.released = false) : l.item ∉ s.pool.free := by
  intro hfree
  have hall := (h.parts.nodup_iff).2 hnd
  refine (List.nodup_append.1 hall).2.2 _ hfree _ ?_ rfl
  exact mem_itemsOf.2 ⟨l, hl, by rw [Lease.isOut, hout]; rfl, rfl⟩

end Inv

theorem young_concat {ls : List (Lease T)} (h : Young ls) {new : Lease T}
    (hyounger : ∀ l ∈ ls, l.ticket < new.ticket)
    (hfresh : ∀ l ∈ ls, l.released = false → l.item ≠ new.item) : Young (ls ++ [new]) := by
  intro l hl hout l' hl' hitem
  rcases List.mem_append.1 hl with hold | hnew
  · rcases List.mem_append.1 hl' with hold' | hnew'
    · exact h l hold hout l' hold' hitem
    · rw [List.mem_singleton.1 hnew'] at hitem
      exact absurd hitem.symm (hfresh l hold hout)
  · rw [List.mem_singleton.1 hnew]
    rcases List.mem_append.1 hl' with hold' | hnew'
    · exact le_of_lt (hyounger l' hold')
    · rw [List.mem_singleton.1 hnew']

variable {l : Lease T} {f : Lease T → Lease T}

theorem young_update {l₁ l₂ : List (Lease T)} {l' : Lease T} (h : Young (l₁ ++ l :: l₂))
    (hticket : l'.ticket = l.ticket) (hitem : l'.item = l.item)
    (hrel : l'.released = false → l.released = false) : Young (l₁ ++ l' :: l₂) := by
  have hold : ∀ m ∈ l₁ ++ l' :: l₂, ∃ m₀ ∈ l₁ ++ l :: l₂, m₀.ticket = m.ticket ∧
      m₀.item = m.item ∧ (m.released = false → m₀.released = false) := by
    intro m hm
    simp only [List.mem_append, List.mem_cons] at hm ⊢
    rcases hm with hm | rfl | hm
    · exact ⟨m, Or.inl hm, rfl, rfl, id⟩
    · exact ⟨l, Or.inr (Or.inl rfl), hticket.symm, hitem.symm, hrel⟩
    · exact ⟨m, Or.inr (Or.inr hm), rfl, rfl, id⟩
  intro m hm hout n hn hmn
  obtain ⟨m₀, hm₀, ht, hi, hr⟩ := hold m hm
  obtain ⟨n₀, hn₀, ht', hi', _⟩ := hold n hn
  rw [← ht, ← ht']
  exact h m₀ hm₀ (hr hout) n₀ hn₀ (by rw [hi', hi, hmn])

theorem lease_jobs (w : Waiter) (item : T) (leaked : List String) (settled : Bool)
    (h : (w.lease item).holder = .job leaked settled) :
    (w.lease item).released = true ↔ settled = true ∧ leaked = [] := by
  unfold Waiter.lease at h ⊢
  dsimp only at h ⊢
  split_ifs at h
  cases h
  simp

theorem Inv.acquire (h : Inv items s) (hnd : items.Nodup) (isJob : Bool) :
    Inv items (s.acquire isJob) := by
  unfold PoolState.acquire
  cases hfree : s.pool.free with
  | nil =>
    dsimp only
    constructor
    · rw [List.map_append, ← List.append_assoc, h.order, List.range_succ]
      rfl
    · exact fun _ => hfree
    · exact h.parts
    · exact h.jobs
    · exact h.young
  | cons item free =>
    dsimp only
    have hempty : s.pool.waiters = [] := by
      by_contra hne
      rw [h.waiting hne] at hfree
      cases hfree
    constructor
    · have horder := h.order
      rw [hempty, List.map_nil, List.append_nil] at horder
      rw [List.map_append, hempty, List.map_nil, List.append_nil, horder, List.range_succ]
      rfl
    · exact fun hne => absurd hempty hne
    · have hparts := h.parts
      rw [hfree] at hparts
      refine .trans ?_ hparts
      unfold out
      rw [itemsOf_append, ← List.append_assoc]
      exact List.perm_append_singleton item (free ++ itemsOf Lease.isOut s.leases)
    · intro l hl leaked settled hjob
      rcases List.mem_append.1 hl with hl | hl
      · exact h.jobs l hl leaked settled hjob
      · obtain rfl := List.mem_singleton.1 hl
        exact lease_jobs _ _ _ _ hjob
    · refine young_concat h.young (fun l hl => h.ticket_lt_next hl) fun l hl hout heq => ?_
      refine h.not_free hnd hl hout ?_
      rw [heq, hfree]
      exact List.mem_cons_self

theorem Inv.update (h : Inv items s) (hl : l ∈ s.leases) (hticket : (f l).ticket = l.ticket)
    (hitem : (f l).item = l.item) (hrel : (f l).released = l.released)
    (hjobs : ∀ leaked settled, (f l).holder = .job leaked settled →
      ((f l).released = true ↔ settled = true ∧ leaked = [])) :
    Inv items (s.updateLease l.ticket f) := by
  obtain ⟨l₁, l₂, heq, hnew⟩ := updateLease_split h.tickets_nodup hl
  have hout : (f l).isOut = l.isOut := by
    rw [Lease.isOut, Lease.isOut, hrel]
  constructor
  · show (s.updateLease l.ticket f).leases.map _ ++ s.pool.waiters.map _ = List.range s.next
    rw [hnew, ← h.order, heq]
    simp only [List.map_append, List.map_cons, hticket]
  · exact h.waiting
  · refine .trans (.of_eq ?_) h.parts
    unfold out
    rw [hnew, heq, itemsOf_append, itemsOf_append, itemsOf_cons, itemsOf_cons, hout, hitem]
    rfl
  · intro m hm leaked settled hjob
    rw [hnew] at hm
    simp only [List.mem_append, List.mem_cons] at hm
    rcases hm with hm | rfl | hm
    · exact h.jobs m (heq ▸ List.mem_append_left _ hm) leaked settled hjob
    · exact hjobs leaked settled hjob
    · refine h.jobs m ?_ leaked settled hjob
      exact heq ▸ List.mem_append_right _ (List.mem_cons_of_mem _ hm)
  · rw [hnew]
    exact young_update (heq ▸ h.young) hticket hitem fun hr => hrel ▸ hr

theorem Inv.giveBack (h : Inv items s) (hl : l ∈ s.leases) (hout : l.released = false)
    (hticket : (f l).ticket = l.ticket) (hitem : (f l).item = l.item) (hrel : (f l).released = true)
    (hjobs : ∀ leaked settled, (f l).holder = .job leaked settled →
      ((f l).released = true ↔ settled = true ∧ leaked = [])) :
    Inv items ((s.updateLease l.ticket f).giveBack l.item) := by
  obtain ⟨l₁, l₂, heq, hnew⟩ := updateLease_split h.tickets_nodup hl
  have horder : (s.updateLease l.ticket f).leases.map Lease.ticket =
      s.leases.map Lease.ticket := by
    rw [hnew, heq]
    simp only [List.map_append, List.map_cons, hticket]
  -- the items of the other leases are the ones that were out, without this one
  have hparts : (s.pool.free ++ l.item :: itemsOf Lease.isOut (l₁ ++ f l :: l₂)).Perm items := by
    refine .trans ?_ h.parts
    have hgone : (f l).isOut = false := by rw [Lease.isOut, hrel]; rfl
    have hthere : l.isOut = true := by rw [Lease.isOut, hout]; rfl
    unfold out
    rw [heq, itemsOf_append, itemsOf_append, itemsOf_cons, itemsOf_cons, hgone, hthere, if_pos rfl,
      if_neg Bool.false_ne_true]
    exact List.perm_middle.symm.append_left _
  have hjobs' : ∀ m ∈ l₁ ++ f l :: l₂, ∀ leaked settled, m.holder = .job leaked settled →
      (m.released = true ↔ settled = true ∧ leaked = []) := by
    intro m hm leaked settled hjob
    simp only [List.mem_append, List.mem_cons] at hm
    rcases hm with hm | rfl | hm
    · exact h.jobs m (heq ▸ List.mem_append_left _ hm) leaked settled hjob
    · exact hjobs leaked settled hjob
    · refine h.jobs m ?_ leaked settled hjob
      exact heq ▸ List.mem_append_right _ (List.mem_cons_of_mem _ hm)
  have hyoung : Young (l₁ ++ f l :: l₂) :=
    young_update (heq ▸ h.young) hticket hitem fun hr => absurd hr (by rw [hrel]; decide)
  unfold PoolState.giveBack
  cases hw : (s.updateLease l.ticket f).pool.waiters with
  | nil =>
    have hw' : s.pool.waiters = [] := hw
    dsimp only
    constructor
    · show (s.updateLease l.ticket f).leases.map Lease.ticket ++ s.pool.waiters.map _ = _
      rw [horder, h.order]
      rfl
    · exact fun hne => absurd hw' hne
    · refine .trans ?_ hparts
      show (s.pool.free ++ [l.item] ++ itemsOf _ (s.updateLease l.ticket f).leases).Perm _
      rw [hnew, List.append_assoc, List.singleton_append]
    · exact hnew f ▸ hjobs'
    · exact hnew f ▸ hyoung
  | cons w ws =>
    have hw' : s.pool.waiters = w :: ws := hw
    have hmem : w ∈ s.pool.waiters := hw' ▸ List.mem_cons_self
    dsimp only
    constructor
    · show ((s.updateLease l.ticket f).leases ++ [w.lease l.item]).map Lease.ticket ++ ws.map _ = _
      rw [List.map_append, horder, List.append_assoc]
      have hall := h.order
      rw [hw', List.map_cons] at hall
      exact hall
    · exact fun _ => h.waiting (List.ne_nil_of_mem hmem)
    · refine .trans ?_ hparts
      show (s.pool.free ++ itemsOf _ ((s.updateLease l.ticket f).leases ++ [w.lease l.item])).Perm _
      rw [hnew, itemsOf_append]
      exact (List.perm_append_singleton l.item _).append_left _
    · intro m hm leaked settled hjob
      rcases List.mem_append.1 hm with hm | hm
      · exact hjobs' m (hnew f ▸ hm) leaked settled hjob
      · obtain rfl := List.mem_singleton.1 hm
        exact lease_jobs _ _ _ _ hjob
    · rw [hnew]
      refine young_concat hyoung (fun m hm => ?_) fun m hm hmout hmitem => ?_
      · simp only [List.mem_append, List.mem_cons] at hm
        rcases hm with hm | rfl | hm
        · exact h.ticket_lt (heq ▸ List.mem_append_left _ hm) hmem
        · rw [hticket]
          exact h.ticket_lt hl hmem
        · exact h.ticket_lt (heq ▸ List.mem_append_right _ (List.mem_cons_of_mem _ hm)) hmem
      · have hmitem : m.item = l.item := hmitem
        have hother : m ∈ l₁ ∨ m ∈ l₂ := by
          simp only [List.mem_append, List.mem_cons] at hm
          rcases hm with hm | rfl | hm
          · exact Or.inl hm
          · rw [hrel] at hmout
            cases hmout
          · exact Or.inr hm
        have hms : m ∈ s.leases := by
          rw [heq, List.mem_append, List.mem_cons]
          exact hother.imp_right Or.inr
        obtain rfl := h.out_unique hl hms hout hmout hmitem
        have hnd := h.tickets_nodup
        rw [heq, List.map_append, List.map_cons, List.nodup_middle, List.nodup_cons] at hnd
        refine hnd.1 (List.mem_append.2 (hother.imp ?_ ?_))
        · exact List.mem_map_of_mem
        · exact List.mem_map_of_mem

theorem mem_of_leaseOf {ticket : Nat} (h : s.leaseOf ticket = some l) :
    l ∈ s.leases ∧ l.ticket = ticket := by
  unfold leaseOf at h
  exact ⟨List.mem_of_find?_eq_some h, of_decide_eq_true (List.find?_some h :)⟩

theorem Inv.step (h : Inv items s) (hnd : items.Nodup) (a : PoolAction) :
    Inv items (s.step a) := by
  cases a with
  | acquire => exact h.acquire hnd false
  | withSlot => exact h.acquire hnd true
  | release ticket =>
    unfold PoolState.step PoolState.release
    dsimp only
    cases hl : s.leaseOf ticket with
    | none => exact h
    | some l =>
      obtain ⟨hmem, rfl⟩ := mem_of_leaseOf hl
      dsimp only
      cases hholder : l.holder with
      | job leaked settled => exact h
      | caller =>
        dsimp only
        split_ifs with hr
        · exact h
        · refine h.giveBack hmem (Bool.eq_false_iff.2 hr) rfl rfl rfl ?_
          intro leaked settled hjob
          have hjob : l.holder = .job leaked settled := hjob
          rw [hholder] at hjob
          cases hjob
  | onLeak ticket names =>
    unfold PoolState.step PoolState.report
    dsimp only
    cases hl : s.leaseOf ticket with
    | none => exact h
    | some l =>
      obtain ⟨hmem, rfl⟩ := mem_of_leaseOf hl
      dsimp only
      have hold := h.jobs l hmem
      refine h.update hmem ?_ ?_ ?_ ?_
      · unfold Lease.onLeak
        split <;> rfl
      · unfold Lease.onLeak
        split <;> rfl
      · unfold Lease.onLeak
        split <;> rfl
      · unfold Lease.onLeak
        split
        · rename_i leaked hholder
          intro leaked' settled hjob
          cases hjob
          have hout := hold leaked false hholder
          simpa using hout
        · exact hold
  | settle ticket jobEnd =>
    unfold PoolState.step PoolState.settle
    dsimp only
    cases hl : s.leaseOf ticket with
    | none => exact h
    | some l =>
      obtain ⟨hmem, rfl⟩ := mem_of_leaseOf hl
      dsimp only
      split
      · rename_i leaked hholder
        have hout : l.released = false := by
          have hr := h.jobs l hmem leaked false hholder
          simpa using hr
        have hsettled : l.settle = { l with holder := .job leaked true } := by
          unfold Lease.settle
          rw [hholder]
        split_ifs with hleak
        · refine h.giveBack hmem hout ?_ ?_ rfl ?_
          · rw [hsettled]
            rfl
          · rw [hsettled]
            rfl
          · rw [hsettled]
            intro leaked' settled hjob
            cases hjob
            exact iff_of_true rfl ⟨rfl, hleak⟩
        · refine h.update hmem ?_ ?_ ?_ ?_
          · rw [hsettled]
          · rw [hsettled]
          · rw [hsettled]
          · rw [hsettled]
            intro leaked' settled hjob
            cases hjob
            rw [hout]
            simp [hleak]
      · exact h

theorem Inv.run (h : Inv items s) (hnd : items.Nodup) (actions : List PoolAction) :
    Inv items (s.run actions) := by
  induction actions generalizing s with
  | nil => exact h
  | cons a actions ih => exact ih (h.step hnd a)

theorem inv_start {pool : SlotPool T} (hpool : SlotPool.new items = .ok pool) :
    Inv items (start pool) := by
  have heq : pool = { free := items, waiters := [] } := by
    cases items with
    | nil => cases hpool
    | cons x xs => exact (Except.ok.inj hpool).symm
  subst heq
  constructor
  · rfl
  · exact fun hne => absurd rfl hne
  · show (items ++ []).Perm items
    rw [List.append_nil]
  · exact fun l hl => absurd hl List.not_mem_nil
  · exact fun l hl => absurd hl List.not_mem_nil

/-! ## A leak keeps its slot back -/

/-- The lease of a ticket is on this item, and its job reported a leak. -/
def LeakedAt (s : PoolState T) (ticket : Nat) (item : T) : Prop :=
  ∃ l ∈ s.leases, l.ticket = ticket ∧ l.item = item ∧
    ∃ leaked settled, l.holder = .job leaked settled ∧ leaked ≠ []

variable {ticket : Nat} {item : T}

theorem LeakedAt.update (h : LeakedAt s ticket item)
    (hf : ∀ l, (f l).ticket = l.ticket ∧ (f l).item = l.item ∧
      ∀ leaked settled, l.holder = .job leaked settled → leaked ≠ [] →
        ∃ leaked' settled', (f l).holder = .job leaked' settled' ∧ leaked' ≠ []) (t : Nat) :
    LeakedAt (s.updateLease t f) ticket item := by
  obtain ⟨l, hl, hticket, hitem, leaked, settled, hholder, hleak⟩ := h
  refine ⟨if l.ticket = t then f l else l, List.mem_map_of_mem hl, ?_⟩
  split_ifs with ht
  · obtain ⟨hft, hfi, hfh⟩ := hf l
    exact ⟨hft.trans hticket, hfi.trans hitem, hfh leaked settled hholder hleak⟩
  · exact ⟨hticket, hitem, leaked, settled, hholder, hleak⟩

theorem LeakedAt.giveBack (h : LeakedAt s ticket item) (x : T) :
    LeakedAt (s.giveBack x) ticket item := by
  obtain ⟨l, hl, hrest⟩ := h
  unfold PoolState.giveBack
  split
  · exact ⟨l, List.mem_append_left _ hl, hrest⟩
  · exact ⟨l, hl, hrest⟩

theorem LeakedAt.acquire (h : LeakedAt s ticket item) (isJob : Bool) :
    LeakedAt (s.acquire isJob) ticket item := by
  obtain ⟨l, hl, hrest⟩ := h
  unfold PoolState.acquire
  dsimp only
  split
  · exact ⟨l, List.mem_append_left _ hl, hrest⟩
  · exact ⟨l, hl, hrest⟩

theorem settle_keeps (l : Lease T) : l.settle.ticket = l.ticket ∧ l.settle.item = l.item ∧
    ∀ leaked settled, l.holder = .job leaked settled → leaked ≠ [] →
      ∃ leaked' settled', l.settle.holder = .job leaked' settled' ∧ leaked' ≠ [] := by
  unfold Lease.settle
  split
  · rename_i leaked₀ settled₀ hholder
    refine ⟨rfl, rfl, fun leaked settled h hleak => ?_⟩
    rw [hholder] at h
    cases h
    exact ⟨leaked₀, true, rfl, hleak⟩
  · exact ⟨rfl, rfl, fun leaked settled h hleak => ⟨leaked, settled, h, hleak⟩⟩

theorem LeakedAt.step (h : LeakedAt s ticket item) (a : PoolAction) :
    LeakedAt (s.step a) ticket item := by
  cases a with
  | acquire => exact h.acquire false
  | withSlot => exact h.acquire true
  | release t =>
    unfold PoolState.step PoolState.release
    dsimp only
    split
    · exact h
    · split
      · exact h
      · split_ifs
        · exact h
        · refine (h.update (f := Lease.release) (fun l => ⟨rfl, rfl, ?_⟩) t).giveBack _
          exact fun leaked settled hh hleak => ⟨leaked, settled, hh, hleak⟩
  | onLeak t names =>
    unfold PoolState.step PoolState.report
    dsimp only
    split
    · exact h
    · refine h.update (fun l => ?_) t
      unfold Lease.onLeak
      split
      · rename_i leaked₀ hholder
        refine ⟨rfl, rfl, fun leaked settled hh hleak => ?_⟩
        rw [hholder] at hh
        cases hh
        exact ⟨_, _, rfl, fun hnil => hleak (List.append_eq_nil_iff.1 hnil).1⟩
      · exact ⟨rfl, rfl, fun leaked settled hh hleak => ⟨leaked, settled, hh, hleak⟩⟩
  | settle t jobEnd =>
    unfold PoolState.step PoolState.settle
    dsimp only
    split
    · exact h
    · split
      · split_ifs
        · exact (h.update (f := fun l => l.settle.release) settle_keeps t).giveBack _
        · exact h.update settle_keeps t
      · exact h

theorem LeakedAt.run (h : LeakedAt s ticket item) (actions : List PoolAction) :
    LeakedAt (s.run actions) ticket item := by
  induction actions generalizing s with
  | nil => exact h
  | cons a actions ih => exact ih (h.step a)

theorem Inv.leaked (h : Inv items s) (hnd : items.Nodup) (hleak : LeakedAt s ticket item) :
    item ∉ s.pool.free ∧ ∀ l ∈ s.leases, l.item = item → l.ticket ≤ ticket := by
  obtain ⟨l, hl, rfl, rfl, leaked, settled, hholder, hne⟩ := hleak
  have hout : l.released = false := by
    rw [← Bool.not_eq_true, h.jobs l hl leaked settled hholder]
    exact fun hand => hne hand.2
  exact ⟨h.not_free hnd hl hout, h.young l hl hout⟩

/-! ## The result -/

/-- The item is handed on: to the first waiter, or to the free ones. -/
def HandedOn (s s' : PoolState T) (item : T) : Prop :=
  match s.pool.waiters with
  | [] => s'.pool.free = s.pool.free ++ [item]
  | w :: waiters => s'.pool.waiters = waiters ∧ w.lease item ∈ s'.leases

theorem Inv.handedOn (h : Inv items s) (hl : l ∈ s.leases) (hholder : l.holder = .job [] false)
    (jobEnd : JobEnd) : HandedOn s (s.step (.settle l.ticket jobEnd)) l.item := by
  have hfind : s.leaseOf l.ticket = some l := by
    cases hfind : s.leaseOf l.ticket with
    | none =>
      have hne := List.find?_eq_none.1 hfind l hl
      exact absurd (decide_eq_true rfl) hne
    | some l' =>
      obtain ⟨hmem, hticket⟩ := mem_of_leaseOf hfind
      rw [List.inj_on_of_nodup_map h.tickets_nodup hmem hl hticket]
  unfold PoolState.step PoolState.settle HandedOn
  dsimp only
  rw [hfind]
  dsimp only
  rw [hholder]
  dsimp only
  rw [if_pos rfl]
  unfold PoolState.giveBack
  cases hw : s.pool.waiters with
  | nil =>
    have hw' : (s.updateLease l.ticket fun l => l.settle.release).pool.waiters = [] := hw
    rw [hw']
    rfl
  | cons w waiters =>
    have hw' : (s.updateLease l.ticket fun l => l.settle.release).pool.waiters = w :: waiters := hw
    rw [hw']
    exact ⟨rfl, List.mem_append_right _ (List.mem_singleton_self _)⟩

end Keep

end PoolState

end Cine.Worker
