import Shop.Lib.Pool
import Shop.Pdf.Service
import Shop.Shared.Relay

/-!
# notification-service

`notification.service.ts`: an event is mailed if its row can be inserted into `notification_log`,
which has one row for each order and event type.  The insert is a statement of its own, and the mail
comes after it: a process that ends in between has the row and no mail.

* `NotificationEvent.mail`    the mail of an event, as it is logged;
* `markSent`                  the insert, and what it makes of its errors;
* `NotificationTx`, `Desk`    calls of the handlers, and the table with the mails so far;
* `Desk.mailsOf`, `owedOf`    the mails of an order and event type, and the calls that owe one;
* `DeskAccounted`                 each row of the log is a mail, or owed by one call;
* `notified_once`             it holds in every run; a call that returns has its mail accounted for.

A call is never cancelled: one whose process has ended stays where it was.
-/

set_option linter.unusedSectionVars false

namespace Shop
open Lib

/-! ## events and mails -/

inductive NotificationEvent where
  | confirmed (e : OrderConfirmedEvent)
  | cancelled (e : OrderCancelledEvent)
  | pdfReady (e : PdfGeneratedEvent)
deriving DecidableEq

/-- the recipient, the subject and the rest of a line that stands for a mail -/
structure Mail where
  correlationId : String
  recipient : String
  subject : String
  details : List String
deriving DecidableEq

def Mail.line (m : Mail) : String :=
  "[" ++ m.correlationId ++ "] [EMAIL] To: " ++ m.recipient ++ " | Subject: " ++ m.subject ++
    String.join (m.details.map fun s => " | " ++ s)

namespace NotificationEvent

def orderId : NotificationEvent → String
  | .confirmed e => e.orderId
  | .cancelled e => e.orderId
  | .pdfReady e => e.orderId

def eventType : NotificationEvent → String
  | .confirmed _ => Topic.text .orderConfirmed
  | .cancelled _ => Topic.text .orderCancelled
  | .pdfReady _ => Topic.text .pdfGenerated

def correlationId : NotificationEvent → String
  | .confirmed e => e.correlationId
  | .cancelled e => e.correlationId
  | .pdfReady e => e.correlationId

/-- what is unique in the log -/
def key (e : NotificationEvent) : String × String := (e.orderId, e.eventType)

def mail : NotificationEvent → Mail
  | .confirmed e =>
    { correlationId := e.correlationId
      recipient := e.userEmail
      subject := "Order Confirmed #" ++ e.orderId
      details := ["Items: " ++ toString e.items.length, "Total: $" ++ toFixed2 e.total] }
  | .cancelled e =>
    { correlationId := e.correlationId
      recipient := e.userEmail
      subject := "Order Cancelled #" ++ e.orderId
      details := ["Reason: " ++ e.reason] }
  | .pdfReady e =>
    { correlationId := e.correlationId
      recipient := e.userEmail
      subject := "Your Order Receipt is Ready"
      details := ["Order: #" ++ e.orderId, "PDF: " ++ e.pdfPath] }

end NotificationEvent

/-! ## the log -/

structure NotificationLog where
  id : String
  orderId : String
  eventType : String
  correlationId : String
  createdAt : Nat
deriving DecidableEq

def NotificationLog.key (r : NotificationLog) : String × String := (r.orderId, r.eventType)

/-- an error of the database, with its SQLSTATE -/
structure QueryFailed where
  code : String
  message : String
deriving DecidableEq

/-- the insert of a row; one row an order and event type -/
def insertLog (g : RowDefaults) (e : NotificationEvent) (t : List NotificationLog) :
    Except QueryFailed (List NotificationLog) :=
  if g.id.val ∈ t.map NotificationLog.id ∨ e.key ∈ t.map NotificationLog.key then
    .error ⟨"23505", "duplicate key value violates unique constraint"⟩
  else .ok (t ++ [⟨g.id.val, e.orderId, e.eventType, e.correlationId, g.now⟩])

/-- `true` for the first time, `false` for a duplicate; other errors are thrown.  The result of the
insert comes with the table that it leaves. -/
def markSent (inserted : Except QueryFailed (List NotificationLog)) (t : List NotificationLog) :
    List NotificationLog × Except String Bool :=
  match inserted with
  | .ok t' => (t', .ok true)
  | .error e => if e.code = "23505" then (t, .ok false) else (t, .error e.message)

/-! ## calls of the handlers -/

/-- A call by what it does next: it marks its event (`called`), logs the mail (`composing`), or is
over. -/
inductive NotificationTx where
  | called (e : NotificationEvent)
  | composing (e : NotificationEvent)
  | returned (e : NotificationEvent)
  | failed (e : NotificationEvent) (error : String)
deriving DecidableEq

/-- the table, and the events that have been mailed, in this order -/
structure Desk where
  logs : List NotificationLog
  mails : List NotificationEvent
deriving DecidableEq

def Desk.empty : Desk := ⟨[], []⟩

/-- the statement is executed, or fails for a reason of its own -/
inductive NotificationAccess where
  | go (g : RowDefaults)
  | fault (error : QueryFailed)

def NotificationAccess.inserts (b : NotificationAccess) (e : NotificationEvent)
    (t : List NotificationLog) : Except QueryFailed (List NotificationLog) :=
  match b with
  | .go g => insertLog g e t
  | .fault error => .error error

namespace NotificationTx

def next (b : NotificationAccess) (d : Desk) : NotificationTx → Option (Desk × NotificationTx)
  | .called e =>
    match markSent (b.inserts e d.logs) d.logs with
    | (logs, .ok true) => some ({ d with logs := logs }, .composing e)
    | (logs, .ok false) => some ({ d with logs := logs }, .returned e)
    | (logs, .error message) => some ({ d with logs := logs }, .failed e message)
  | .composing e => some ({ d with mails := d.mails ++ [e] }, .returned e)
  | .returned _ => none
  | .failed _ _ => none

/-- no lock is held from one access to the next -/
def held (_ : NotificationTx) : List Unit := []

/-- the order and event type that the call has a row for, and no mail yet -/
def owes : NotificationTx → Option (String × String)
  | .composing e => some e.key
  | _ => none

end NotificationTx

abbrev NotificationAction := PoolAction NotificationEvent NotificationAccess

def NotificationPool.step : Pool Desk NotificationTx → NotificationAction →
    Pool Desk NotificationTx :=
  Pool.step .called NotificationTx.next NotificationTx.held

/-! ## mails, rows and calls of one order and event type -/

def Desk.mailsOf (d : Desk) (key : String × String) : Nat :=
  d.mails.countP fun e => decide (e.key = key)

def Desk.rowsOf (d : Desk) (key : String × String) : Nat :=
  d.logs.countP fun r => decide (r.key = key)

def owedOf (txs : List NotificationTx) (key : String × String) : Nat :=
  txs.countP fun t => decide (t.owes = some key)

/-- an access reports a duplicate only where there is one -/
def genuine : NotificationAccess → Desk → NotificationTx → Prop
  | .go g, d, .called _ => g.id.val ∉ d.logs.map NotificationLog.id
  | .go _, _, _ => True
  | .fault error, _, _ => error.code ≠ "23505"

instance : ∀ b d t, Decidable (genuine b d t)
  | .go g, d, .called _ => inferInstanceAs (Decidable (g.id.val ∉ d.logs.map NotificationLog.id))
  | .go _, _, .composing _ => .isTrue trivial
  | .go _, _, .returned _ => .isTrue trivial
  | .go _, _, .failed _ _ => .isTrue trivial
  | .fault error, _, _ => inferInstanceAs (Decidable (error.code ≠ "23505"))

/-- the events that have not been mailed come from `D` -/
def NotificationTx.Sound (D : NotificationEvent → Prop) : NotificationTx → Prop
  | .called e => D e
  | .composing e => D e
  | _ => True

/-- a call that has a row, or has found one -/
def NotificationTx.Marked (d : Desk) : NotificationTx → Prop
  | .composing e => e.key ∈ d.logs.map NotificationLog.key
  | .returned e => e.key ∈ d.logs.map NotificationLog.key
  | _ => True

structure Desk.Inv (D : NotificationEvent → Prop) (d : Desk) : Prop where
  keys : (d.logs.map NotificationLog.key).Nodup
  mails : ∀ e ∈ d.mails, D e

theorem Desk.Inv.empty (D : NotificationEvent → Prop) : Desk.Inv D Desk.empty :=
  ⟨List.nodup_nil, fun _ he => absurd he List.not_mem_nil⟩

theorem Desk.Inv.mono {D D' : NotificationEvent → Prop} {d : Desk} (h : d.Inv D)
    (hD : ∀ e, D e → D' e) : d.Inv D' := ⟨h.keys, fun e he => hD e (h.mails e he)⟩

theorem NotificationTx.Sound.mono {D D' : NotificationEvent → Prop} {t : NotificationTx}
    (h : t.Sound D) (hD : ∀ e, D e → D' e) : t.Sound D' := by
  cases t with
  | called e => exact hD e h
  | composing e => exact hD e h
  | returned e => trivial
  | failed e m => trivial

theorem Desk.rowsOf_le_one {d : Desk} (h : (d.logs.map NotificationLog.key).Nodup)
    (key : String × String) : d.rowsOf key ≤ 1 := by
  have hcount := List.nodup_iff_count_le_one.mp h key
  unfold Desk.rowsOf
  rw [List.count, List.countP_map] at hcount
  refine Nat.le_trans (Nat.le_of_eq ?_) hcount
  refine List.countP_congr fun r _ => ?_
  simp [beq_iff_eq]

theorem Desk.rowsOf_pos {d : Desk} {key : String × String}
    (h : key ∈ d.logs.map NotificationLog.key) : 0 < d.rowsOf key := by
  obtain ⟨r, hr, rfl⟩ := List.mem_map.mp h
  exact List.countP_pos_iff.mpr ⟨r, hr, decide_eq_true rfl⟩

theorem Desk.rowsOf_append (d : Desk) (r : NotificationLog) (key : String × String) :
    ({ d with logs := d.logs ++ [r] } : Desk).rowsOf key =
      d.rowsOf key + if r.key = key then 1 else 0 := by
  show List.countP _ (d.logs ++ [r]) = _
  rw [List.countP_append, List.countP_singleton]
  simp [Desk.rowsOf]

theorem Desk.mailsOf_append (d : Desk) (e : NotificationEvent) (key : String × String) :
    ({ d with mails := d.mails ++ [e] } : Desk).mailsOf key =
      d.mailsOf key + if e.key = key then 1 else 0 := by
  show List.countP _ (d.mails ++ [e]) = _
  rw [List.countP_append, List.countP_singleton]
  simp [Desk.mailsOf]

/-- what one call owes after an access, with the others as they were -/
theorem owedOf_set {txs : List NotificationTx} {tx : Nat} {t : NotificationTx}
    (ht : txs[tx]? = some t) (t' : NotificationTx) (key : String × String) :
    owedOf (txs.set tx t') key + (if t.owes = some key then 1 else 0) =
      owedOf txs key + if t'.owes = some key then 1 else 0 := by
  induction txs generalizing tx with
  | nil => cases ht
  | cons u txs ih =>
    cases tx with
    | zero =>
      cases ht
      simp only [owedOf, List.set_cons_zero, List.countP_cons, decide_eq_true_eq]
      omega
    | succ tx =>
      have h := ih ht
      simp only [owedOf, List.set_cons_succ, List.countP_cons, decide_eq_true_eq] at h ⊢
      omega

/-! ## one access -/

/-- what an access does: it inserts the row of an event that has none, it finds a duplicate, it
fails, or it logs the mail -/
inductive Notifies (b : NotificationAccess) (d : Desk) : NotificationTx → Desk → NotificationTx →
    Prop where
  | first (e : NotificationEvent) (r : NotificationLog) : r.key = e.key →
      e.key ∉ d.logs.map NotificationLog.key →
      Notifies b d (.called e) { d with logs := d.logs ++ [r] } (.composing e)
  | duplicate (e : NotificationEvent) :
      (genuine b d (.called e) → e.key ∈ d.logs.map NotificationLog.key) →
      Notifies b d (.called e) d (.returned e)
  | failed (e : NotificationEvent) (error : String) : Notifies b d (.called e) d (.failed e error)
  | mailed (e : NotificationEvent) :
      Notifies b d (.composing e) { d with mails := d.mails ++ [e] } (.returned e)

theorem notifies_called (g : RowDefaults) (d : Desk) (e : NotificationEvent) {d' : Desk}
    {t' : NotificationTx} (h : NotificationTx.next (.go g) d (.called e) = some (d', t')) :
    Notifies (.go g) d (.called e) d' t' := by
  by_cases htaken : g.id.val ∈ d.logs.map NotificationLog.id ∨
      e.key ∈ d.logs.map NotificationLog.key
  · simp only [NotificationTx.next, NotificationAccess.inserts, insertLog, if_pos htaken, markSent,
      if_true] at h
    cases h
    exact .duplicate e fun hg => htaken.resolve_left hg
  · simp only [NotificationTx.next, NotificationAccess.inserts, insertLog, if_neg htaken,
      markSent] at h
    cases h
    exact .first e _ rfl fun hk => htaken (Or.inr hk)

theorem notifies {b : NotificationAccess} {d d' : Desk} {t t' : NotificationTx}
    (h : NotificationTx.next b d t = some (d', t')) : Notifies b d t d' t' := by
  cases t with
  | called e =>
    cases b with
    | go g => exact notifies_called g d e h
    | fault error =>
      by_cases hcode : error.code = "23505"
      · simp only [NotificationTx.next, NotificationAccess.inserts, markSent, if_pos hcode] at h
        cases h
        exact .duplicate e fun hg => absurd hcode hg
      · simp only [NotificationTx.next, NotificationAccess.inserts, markSent, if_neg hcode] at h
        cases h
        exact .failed e error.message
  | composing e => cases h; exact .mailed e
  | returned e => cases h
  | failed e m => cases h

theorem Notifies.keys_sub {b : NotificationAccess} {d d' : Desk} {t t' : NotificationTx}
    (h : Notifies b d t d' t') {key : String × String}
    (hk : key ∈ d.logs.map NotificationLog.key) : key ∈ d'.logs.map NotificationLog.key := by
  cases h with
  | first e r hr hnew =>
    show key ∈ (d.logs ++ [r]).map NotificationLog.key
    rw [List.map_append]
    exact List.mem_append_left _ hk
  | _ => exact hk

theorem NotificationTx.Marked.mono {b : NotificationAccess} {d d' : Desk}
    {t t' u : NotificationTx} (hu : u.Marked d) (h : Notifies b d t d' t') : u.Marked d' := by
  cases u with
  | composing e => exact h.keys_sub hu
  | returned e => exact h.keys_sub hu
  | _ => trivial

/-- what is mailed has been delivered, and no two rows have one key -/
theorem stable_notified (D : NotificationEvent → Prop) : Stable NotificationTx.called
    NotificationTx.next NotificationTx.held D (fun _ _ _ => True) (Desk.Inv D)
    (fun _ t => t.Sound D) where
  start_held := fun _ => rfl
  start_loc := fun _ _ he _ => he
  own := by
    intro b d t d' t' hinv ht _ hn
    cases notifies hn with
    | first e r hr hnew =>
      refine ⟨⟨?_, hinv.mails⟩, ht⟩
      show ((d.logs ++ [r]).map NotificationLog.key).Nodup
      rw [List.map_append, List.map_singleton, hr]
      exact hinv.keys.append (List.nodup_singleton _) (by simpa using hnew)
    | duplicate e _ => exact ⟨hinv, trivial⟩
    | failed e m => exact ⟨hinv, trivial⟩
    | mailed e =>
      refine ⟨⟨hinv.keys, fun x hx => ?_⟩, trivial⟩
      rcases List.mem_append.mp hx with hx | hx
      · exact hinv.mails x hx
      · rw [List.mem_singleton.mp hx]
        exact ht
  other := fun _ _ _ _ _ _ _ _ hu _ _ _ => hu

/-- a call that returns has found the row of its event, or made it -/
theorem stable_marked : Stable NotificationTx.called NotificationTx.next NotificationTx.held
    (fun _ => True) genuine (fun _ => True) (fun d t => t.Marked d) where
  start_held := fun _ => rfl
  start_loc := fun _ _ _ _ => trivial
  own := by
    intro b d t d' t' _ ht hg hn
    refine ⟨trivial, ?_⟩
    cases notifies hn with
    | first e r hr hnew =>
      show e.key ∈ (d.logs ++ [r]).map NotificationLog.key
      rw [List.map_append, List.map_singleton, hr]
      exact List.mem_append_right _ (List.mem_singleton_self _)
    | duplicate e hdup => exact hdup hg
    | failed e m => trivial
    | mailed e => exact ht
  other := fun _ _ _ _ _ _ _ _ hu _ hn _ => hu.mono (notifies hn)

/-! ## the books of the log -/

/-- every row of the log is a mail, or owed by one call -/
def DeskAccounted (p : Pool Desk NotificationTx) : Prop :=
  ∀ key, p.db.mailsOf key + owedOf p.txs key = p.db.rowsOf key

theorem Notifies.accounted {b : NotificationAccess} {d d' : Desk} {t t' : NotificationTx}
    (h : Notifies b d t d' t') (key : String × String) :
    d'.mailsOf key + (if t'.owes = some key then 1 else 0) + d.rowsOf key =
      d.mailsOf key + (if t.owes = some key then 1 else 0) + d'.rowsOf key := by
  cases h with
  | first e r hr hnew =>
    rw [Desk.rowsOf_append, hr]
    simp [NotificationTx.owes, Desk.mailsOf]
    omega
  | duplicate e _ => simp [NotificationTx.owes]
  | failed e m => simp [NotificationTx.owes]
  | mailed e =>
    rw [Desk.mailsOf_append]
    simp [NotificationTx.owes, Desk.rowsOf]

theorem DeskAccounted.step {p : Pool Desk NotificationTx} (h : DeskAccounted p)
    (a : NotificationAction) : DeskAccounted (NotificationPool.step p a) := by
  intro key
  have hkey := h key
  rcases Pool.step_cases NotificationTx.called NotificationTx.next NotificationTx.held p a with
    ⟨e, _, heq⟩ | ⟨tx, b, t, d', t', _, ht, hn, heq⟩ | heq
  · unfold NotificationPool.step
    rw [heq]
    show p.db.mailsOf key + owedOf (p.txs ++ [.called e]) key = p.db.rowsOf key
    rw [← hkey]
    simp [owedOf, NotificationTx.owes]
  · unfold NotificationPool.step
    rw [heq]
    have hset := owedOf_set ht t' key
    have hacc := (notifies hn).accounted key
    show d'.mailsOf key + owedOf (p.txs.set tx t') key = d'.rowsOf key
    omega
  · unfold NotificationPool.step
    rw [heq]
    exact hkey

theorem accounted_run (as : List NotificationAction) :
    DeskAccounted (run NotificationPool.step ⟨.empty, []⟩ as) :=
  invariant_run (I := DeskAccounted) NotificationPool.step (fun _ a h => h.step a) _ as
    fun _ => rfl

/-- the events that have been delivered -/
def notified (as : List NotificationAction) : List NotificationEvent :=
  as.filterMap fun a => match a with
    | .start e => some e
    | .access _ _ => none

theorem mem_notified {as : List NotificationAction} {e : NotificationEvent} (h : .start e ∈ as) :
    e ∈ notified as := List.mem_filterMap.mpr ⟨_, h, rfl⟩

/-- **At most one mail for an order and event type, and none is dropped unseen.**  Whatever is
delivered, how often, and how the calls interleave: a row of the log is a mail or owed by one call,
there is at most one row, a call that has returned has found or made it, and every mail is for an
event that was delivered. -/
theorem notified_once (as : List NotificationAction) (key : String × String)
    (h : Along NotificationPool.step (Pool.allows genuine) ⟨.empty, []⟩ as) :
    let p := run NotificationPool.step ⟨.empty, []⟩ as
    p.db.mailsOf key + owedOf p.txs key = p.db.rowsOf key ∧ p.db.rowsOf key ≤ 1 ∧
    (∀ e, .returned e ∈ p.txs → e.key = key → p.db.rowsOf key = 1) ∧
    ∀ e ∈ p.db.mails, e ∈ notified as := by
  intro p
  have hgood := (stable_notified (fun e => e ∈ notified as)).run (Desk.Inv.empty _) as
    (fun e he => mem_notified he) (along_intro _ Pool.allows_true _ as)
  have hmarked := stable_marked.run trivial as (fun _ _ => trivial) h
  have hle := Desk.rowsOf_le_one hgood.inv.keys key
  refine ⟨accounted_run as key, hle, fun e he hk => ?_, hgood.inv.mails⟩
  have hpos : 0 < p.db.rowsOf key := Desk.rowsOf_pos (hk ▸ hmarked.loc _ he)
  have hle : p.db.rowsOf key ≤ 1 := hle
  omega

/-- two calls for one event, at the same time -/
theorem notified_once_twice :
    let e : NotificationEvent := .cancelled ⟨"order", "user", "u@x", "corr", "no stock", 0⟩
    let g : RowDefaults := ⟨.sample 'a', 0⟩
    let as : List NotificationAction := [.start e, .start e, .access 0 (.go g),
      .access 1 (.go ⟨.sample 'b', 0⟩), .access 0 (.go g)]
    let p := run NotificationPool.step ⟨.empty, []⟩ as
    p.db.mailsOf e.key + owedOf p.txs e.key = p.db.rowsOf e.key ∧ p.db.rowsOf e.key ≤ 1 ∧
    (∀ x, .returned x ∈ p.txs → x.key = e.key → p.db.rowsOf e.key = 1) ∧
    ∀ x ∈ p.db.mails, x ∈ notified as := by
  intro e g as p
  exact notified_once as e.key (by decide +kernel)

end Shop
