import TinyAutomator.Lib.Fold
import TinyAutomator.Supervision

/-! attemptReconnect as a loop over what connect and setupQueuesAndExchanges meet in each
round, with the connections that its failed rounds have opened. -/
namespace TinyAutomator.Reconnects

open Transition Subscription

/-- The calls of setupQueuesAndExchanges, in its order. -/
inductive Declare where
  | retryExchange
  | deadLetterExchange
  | deadLetterQueue
  | deadLetterBinding
  | mainQueue
  | retryBinding
  deriving DecidableEq

def declares : List Declare :=
  [.retryExchange,.deadLetterExchange,.deadLetterQueue,.deadLetterBinding,.mainQueue,.retryBinding]

def Declare.failure : Declare → String
  | .retryExchange => "failed to declare retry exchange: "
  | .deadLetterExchange => "failed to declare dead letter exchange: "
  | .deadLetterQueue => "failed to declare dead letter queue: "
  | .deadLetterBinding => "failed to bind dead letter queue: "
  | .mainQueue => "failed to declare main queue: "
  | .retryBinding => "failed to bind retry exchange to main queue: "

/-- What the broker does in one round: the error of each call that is made, if it fails. `lost`
says that the connection of a set-up that fails has gone down by itself. -/
structure Round where
  dial : Option String
  channel : Option String
  close : Option String
  declare : Declare → Option String
  lost : Bool

def setupQueuesAndExchanges (answer : Declare → Option String) : Except String Unit :=
  declares.forM fun d =>
    match answer d with
    | some err => .error (d.failure ++ err)
    | none => .ok ()

/-- A failed round has opened no connection, or one that is closed or still open. -/
inductive Spent where
  | unopened
  | closed
  | opened
  deriving DecidableEq

/-- The context was done, or has been cancelled, or a new monitor has been started. -/
inductive Ending where
  | stopped
  | gaveUp
  | restarted
  deriving DecidableEq

/-- The variables of the loop and of the client. `failed` has an entry for each failed round. -/
structure Loop where
  connection : Nat
  connectionUp : Bool
  channelUp : Bool
  isConnected : Bool
  attempts : Nat
  failed : List Spent
  ended : Option Ending

/-- monitorConnection has noticed the loss of a connection. -/
def Loop.start (connection : Nat) : Loop where
  connection := connection
  connectionUp := false
  channelUp := false
  isConnected := false
  attempts := 0
  failed := []
  ended := none

/-- The context is looked at twice in a round. It is done from some look on, or never. -/
def doneAt (ctx : Option Nat) (look : Nat) : Bool := ctx.any (· ≤ look)

/-- The connection that the call has opened, when it fails, is closed again. -/
def connect (done : Bool) (r : Round) (l : Loop) : Except (String × Spent) Loop :=
  if done then .error ("context canceled",.unopened)
  else
    match r.dial with
    | some err => .error ("failed to connect to rabbitmq: " ++ err,.unopened)
    | none =>
      match r.channel with
      | some err =>
        match r.close with
        | some err => .error ("failed to close connection: " ++ err,.closed)
        | none => .error ("failed to open channel: " ++ err,.closed)
      | none => .ok { l with
          connection := l.connection + 1, connectionUp := true, channelUp := true, isConnected := true }

/-- The turn `n` of the loop. -/
def attemptReconnect (ctx : Option Nat) (r : Round) (n : Nat) (l : Loop) : Loop :=
  if doneAt ctx (2 * n) then { l with ended := some .stopped }
  else if maxAttempts ≤ l.attempts then { l with ended := some .gaveUp }
  else
    match connect (doneAt ctx (2 * n + 1)) r l with
    | .error (_,spent) => { l with attempts := l.attempts + 1, failed := l.failed ++ [spent] }
    | .ok l =>
      match setupQueuesAndExchanges r.declare with
      | .error _ =>
        { l with
          connectionUp := !r.lost
          channelUp := false
          failed := l.failed ++ [if r.lost then .closed else .opened] }
      | .ok _ => { l with ended := some .restarted }

/-- The loop before its turn `n`, or as it has ended. -/
def turns (ctx : Option Nat) (rounds : Nat → Round) (l : Loop) : Nat → Loop
  | 0 => l
  | n + 1 =>
    let before := turns ctx rounds l n
    if before.ended.isSome then before else attemptReconnect ctx (rounds n) n before

/-- The goroutine of the loop, and the one that it has started. -/
def Loop.monitors (l : Loop) : List Monitor :=
  match l.ended with
  | none => [.reconnecting l.attempts]
  | some .stopped | some .gaveUp => [.leaving]
  | some .restarted => [.leaving,.starting]

def Loop.cancelled (l : Loop) : Bool := l.ended = some .stopped ∨ l.ended = some .gaveUp

/-- The client of the loop. -/
def Loop.client (l : Loop) : Client where
  connection := l.connection
  connectionUp := l.connectionUp
  channelUp := l.channelUp
  isConnected := l.isConnected
  reconnecting := true
  cancelled := l.cancelled
  closed := false
  monitors := l.monitors
  subscribed := false
  consumer := none

/-- What happens after `go c.monitorConnection()`: the new goroutine takes the lock before the
deferred reset of the old one, and the connection is lost before the new one calls NotifyClose. -/
structure HandOver where
  early : Bool
  dropped : Bool

def HandOver.labels (order : HandOver) : List Label :=
  (if order.dropped then [.lose] else []) ++
    if order.early then [.watch 1,.release 0] else [.release 0,.watch 1]

/-- The client is connected and set up, and a monitor waits on its connection. -/
def Monitored (s : Client) : Prop :=
  s.isConnected = true ∧ s.live = true ∧ .watching s.connection ∈ s.monitors

instance : DecidablePred Monitored := fun s => inferInstanceAs (Decidable
  (s.isConnected = true ∧ s.live = true ∧ .watching s.connection ∈ s.monitors))

/-- The loop ends after ten failed rounds at most, with a client that is monitored once both
goroutines have had the lock or with a cancelled context, and has left no connection open. -/
def GivesUp (connection : Nat) (ctx : Option Nat) (rounds : Nat → Round) (order : HandOver) : Prop :=
  ∃ n, let l := turns ctx rounds (.start connection) n
    l.ended.isSome = true ∧ l.failed.length ≤ maxAttempts ∧ .opened ∉ l.failed ∧
    (l.cancelled = true ∨
      ∃ s, follow client (fun _ _ => True) order.labels l.client = some s ∧ Monitored s)

section Turns

variable {ctx : Option Nat} {rounds : Nat → Round} {r : Round} {n : Nat} {l t : Loop} {connection : Nat}

/-- connect() returns an error. -/
def Refused (ctx : Option Nat) (rounds : Nat → Round) (n : Nat) : Prop :=
  doneAt ctx (2 * n + 1) = true ∨ (rounds n).dial.isSome = true ∨ (rounds n).channel.isSome = true

instance : DecidablePred (Refused ctx rounds) := fun n => inferInstanceAs (Decidable
  (doneAt ctx (2 * n + 1) = true ∨ (rounds n).dial.isSome = true ∨ (rounds n).channel.isSome = true))

def Declared (rounds : Nat → Round) (n : Nat) : Prop := ∀ d, (rounds n).declare d = none

/-- A round that fails and leaves no connection open. -/
def FailsClosed (ctx : Option Nat) (rounds : Nat → Round) (n : Nat) : Prop :=
  doneAt ctx (2 * n) = false ∧ (Refused ctx rounds n ∨ ¬Declared rounds n ∧ (rounds n).lost = true)

theorem connect_cases (ctx : Option Nat) (rounds : Nat → Round) (n : Nat) (l : Loop) :
    (Refused ctx rounds n ∧ ∃ err spent, spent ≠ .opened ∧
      connect (doneAt ctx (2 * n + 1)) (rounds n) l = .error (err,spent)) ∨
    (¬Refused ctx rounds n ∧ connect (doneAt ctx (2 * n + 1)) (rounds n) l = .ok { l with
      connection := l.connection + 1, connectionUp := true, channelUp := true, isConnected := true }) := by
  rw [connect]
  split
  next done => exact .inl ⟨.inl done,_,.unopened,by decide,rfl⟩
  next going =>
    split
    next err dial => exact .inl ⟨.inr (.inl (by simp [dial])),_,.unopened,by decide,rfl⟩
    next dial =>
      split
      next err channel =>
        have refused : Refused ctx rounds n := .inr (.inr (by simp [channel]))
        split
        next => exact .inl ⟨refused,_,.closed,by decide,rfl⟩
        next => exact .inl ⟨refused,_,.closed,by decide,rfl⟩
      next channel =>
        refine .inr ⟨?_,rfl⟩
        rintro (done | refused | refused)
        · exact going done
        · simp [dial] at refused
        · simp [channel] at refused

theorem setupQueuesAndExchanges_ok {answer : Declare → Option String} :
    setupQueuesAndExchanges answer = .ok () ↔ ∀ d, answer d = none := by
  have each : ∀ d, d ∈ declares := by
    intro d
    cases d <;> decide
  rw [setupQueuesAndExchanges,Fold.forM_ok]
  constructor
  · intro passed d
    have ok := passed d (each d)
    split at ok
    next => contradiction
    next silent => exact silent
  · intro silent d _
    rw [silent d]

/-- What a turn of the loop can do. -/
inductive Turn (ctx : Option Nat) (rounds : Nat → Round) (n : Nat) (l : Loop) : Loop → Prop where
  | stop (done : doneAt ctx (2 * n) = true) : Turn ctx rounds n l { l with ended := some .stopped }
  | giveUp (going : doneAt ctx (2 * n) = false) (most : maxAttempts ≤ l.attempts) :
      Turn ctx rounds n l { l with ended := some .gaveUp }
  | refused (going : doneAt ctx (2 * n) = false) (less : l.attempts < maxAttempts)
      (refused : Refused ctx rounds n) {spent : Spent} (closed : spent ≠ .opened) :
      Turn ctx rounds n l { l with attempts := l.attempts + 1, failed := l.failed ++ [spent] }
  | notSetUp (going : doneAt ctx (2 * n) = false) (less : l.attempts < maxAttempts)
      (connected : ¬Refused ctx rounds n) (declared : ¬Declared rounds n) :
      Turn ctx rounds n l { l with
        connection := l.connection + 1
        connectionUp := !(rounds n).lost
        channelUp := false
        isConnected := true
        failed := l.failed ++ [if (rounds n).lost then .closed else .opened] }
  | restart (going : doneAt ctx (2 * n) = false) (less : l.attempts < maxAttempts)
      (connected : ¬Refused ctx rounds n) (declared : Declared rounds n) :
      Turn ctx rounds n l { l with
        connection := l.connection + 1, connectionUp := true, channelUp := true, isConnected := true,
        ended := some .restarted }

theorem attemptReconnect_turn (ctx : Option Nat) (rounds : Nat → Round) (n : Nat) (l : Loop) :
    Turn ctx rounds n l (attemptReconnect ctx (rounds n) n l) := by
  rw [attemptReconnect]
  split
  next done => exact .stop done
  next going =>
    have going : doneAt ctx (2 * n) = false := by simpa using going
    split
    next most => exact .giveUp going most
    next less =>
      have less : l.attempts < maxAttempts := Nat.not_le.mp less
      rcases connect_cases ctx rounds n l with ⟨refused,err,spent,closed,failed⟩ | ⟨connected,ok⟩
      · rw [failed]
        exact .refused going less refused closed
      · rw [ok]
        simp only
        split
        next err failed =>
          refine .notSetUp going less connected fun declared => ?_
          rw [setupQueuesAndExchanges_ok.mpr declared] at failed
          contradiction
        next passed => exact .restart going less connected (setupQueuesAndExchanges_ok.mp passed)

def refusals (ctx : Option Nat) (rounds : Nat → Round) (n : Nat) : Nat :=
  (List.range n).countP (Refused ctx rounds ·)

theorem refusals_succ (ctx : Option Nat) (rounds : Nat → Round) (n : Nat) :
    refusals ctx rounds (n + 1) = refusals ctx rounds n + if Refused ctx rounds n then 1 else 0 := by
  simp [refusals,List.range_succ,List.countP_append,List.countP_singleton]

theorem refusals_le (ctx : Option Nat) (rounds : Nat → Round) (n : Nat) : refusals ctx rounds n ≤ n := by
  have bound := List.countP_le_length (p := (Refused ctx rounds ·)) (l := List.range n)
  rwa [List.length_range] at bound

/-- The loop goes on: each round so far has failed, and the connections it left open are those
of the rounds whose set-up failed on a connection that lasts. -/
structure Going (ctx : Option Nat) (rounds : Nat → Round) (n : Nat) (l : Loop) : Prop where
  going : l.ended = none
  attempts : l.attempts = refusals ctx rounds n
  count : l.failed.length = n
  failed : ∀ j < n, doneAt ctx (2 * j) = false ∧ (Refused ctx rounds j ∨ ¬Declared rounds j)
  left : .opened ∈ l.failed ↔ ∃ j < n, ¬Refused ctx rounds j ∧ (rounds j).lost = false

theorem start_going : Going ctx rounds 0 (.start connection) where
  going := rfl
  attempts := rfl
  count := rfl
  failed := fun _ within => absurd within (Nat.not_lt_zero _)
  left := by simp [Loop.start]

theorem Going.turn (going : Going ctx rounds n l) (turn : Turn ctx rounds n l t) (on : t.ended = none) :
    Going ctx rounds (n + 1) t := by
  cases turn with
  | stop | giveUp | restart => contradiction
  | refused active _ refused closed =>
    refine ⟨on,?_,?_,?_,?_⟩
    · rw [refusals_succ,if_pos refused,going.attempts]
    · simp [going.count]
    · exact Nat.forall_lt_succ_right.mpr ⟨going.failed,active,.inl refused⟩
    · rw [Nat.exists_lt_succ_right,← going.left]
      simp [refused,Ne.symm closed]
  | notSetUp active _ connected declared =>
    refine ⟨on,?_,?_,?_,?_⟩
    · rw [refusals_succ,if_neg connected,going.attempts,Nat.add_zero]
    · simp [going.count]
    · exact Nat.forall_lt_succ_right.mpr ⟨going.failed,active,.inr declared⟩
    · rw [Nat.exists_lt_succ_right,← going.left]
      cases lost : (rounds n).lost <;> simp [connected]

theorem turns_stay (ended : (turns ctx rounds l n).ended.isSome = true) :
    turns ctx rounds l (n + 1) = turns ctx rounds l n := by
  simp [turns,ended]

theorem turns_turn (going : (turns ctx rounds l n).ended = none) :
    turns ctx rounds l (n + 1) = attemptReconnect ctx (rounds n) n (turns ctx rounds l n) := by
  simp [turns,going]

theorem turns_going (going : (turns ctx rounds (.start connection) n).ended = none) :
    Going ctx rounds n (turns ctx rounds (.start connection) n) := by
  induction n with
  | zero => exact start_going
  | succ n ih =>
    cases before : (turns ctx rounds (.start connection) n).ended with
    | some ending =>
      rw [turns_stay (by simp [before]),before] at going
      contradiction
    | none =>
      rw [turns_turn before] at going ⊢
      exact (ih before).turn (attemptReconnect_turn ctx rounds n _) going

/-- A loop that has ended did so in one turn. -/
theorem ended_at (ended : (turns ctx rounds (.start connection) n).ended.isSome = true) :
    ∃ k l, Going ctx rounds k l ∧ Turn ctx rounds k l (turns ctx rounds (.start connection) n) := by
  induction n with
  | zero => contradiction
  | succ n ih =>
    cases before : (turns ctx rounds (.start connection) n).ended with
    | some ending =>
      have earlier : (turns ctx rounds (.start connection) n).ended.isSome = true := by simp [before]
      rw [turns_stay earlier]
      exact ih earlier
    | none =>
      rw [turns_turn before]
      exact ⟨n,_,turns_going before,attemptReconnect_turn ctx rounds n _⟩

/-- A round that fails keeps the loop going, while there have been fewer than ten. -/
theorem Going.stays (going : Going ctx rounds n l) (less : n < maxAttempts) (failing : FailsClosed ctx rounds n)
    (turn : Turn ctx rounds n l t) : t.ended = none := by
  obtain ⟨active,fails⟩ := failing
  cases turn with
  | stop done =>
    rw [active] at done
    contradiction
  | giveUp _ most =>
    have bound := refusals_le ctx rounds n
    rw [going.attempts] at most
    omega
  | refused | notSetUp => exact going.going
  | restart _ _ connected declared =>
    rcases fails with refused | ⟨notSetUp,_⟩
    · exact absurd refused connected
    · exact absurd declared notSetUp

theorem going_on (within : n ≤ maxAttempts) (failing : ∀ j < n, FailsClosed ctx rounds j) :
    (turns ctx rounds (.start connection) n).ended = none := by
  induction n with
  | zero => rfl
  | succ n ih =>
    obtain ⟨earlier,fails⟩ := Nat.forall_lt_succ_right.mp failing
    have before := ih (by omega) earlier
    rw [turns_turn before]
    exact (turns_going before).stays within fails (attemptReconnect_turn ctx rounds n _)

/-- The connections of rounds that fail are closed: connect() has closed its own, and one that
could not be set up has gone down by itself. -/
theorem Going.closed (going : Going ctx rounds n l) :
    .opened ∉ l.failed ↔ ∀ j < n, FailsClosed ctx rounds j := by
  rw [going.left]
  constructor
  · intro none_ j within
    obtain ⟨active,fails⟩ := going.failed j within
    refine ⟨active,?_⟩
    by_cases refused : Refused ctx rounds j
    · exact .inl refused
    · refine .inr ⟨fails.resolve_left refused,?_⟩
      by_contra lasts
      exact none_ ⟨j,within,refused,by simpa using lasts⟩
  · rintro closed ⟨j,within,connected,lasts⟩
    rcases (closed j within).2 with refused | ⟨_,lost⟩
    · exact connected refused
    · rw [lasts] at lost
      contradiction

theorem refusals_all (most : maxAttempts ≤ refusals ctx rounds n) (within : n ≤ maxAttempts) :
    n = maxAttempts ∧ ∀ j < n, Refused ctx rounds j := by
  have bound := refusals_le ctx rounds n
  have full : refusals ctx rounds n = (List.range n).length := by
    rw [List.length_range]
    omega
  refine ⟨by omega,fun j less => ?_⟩
  have all := List.countP_eq_length.mp full j (List.mem_range.mpr less)
  exact of_decide_eq_true all

theorem refusals_full (all : ∀ j < n, Refused ctx rounds j) : refusals ctx rounds n = n := by
  have full : refusals ctx rounds n = (List.range n).length :=
    List.countP_eq_length.mpr fun j member => decide_eq_true (all j (List.mem_range.mp member))
  rwa [List.length_range] at full

/-- The new monitor stays if the old one has reset the flag and the connection has held. -/
theorem handOver_iff {order : HandOver} (restarted : l.ended = some .restarted) (up : l.connectionUp = true)
    (channel : l.channelUp = true) (connected : l.isConnected = true) :
    (∃ s, follow client (fun _ _ => True) order.labels l.client = some s ∧ Monitored s) ↔
      order.early = false ∧ order.dropped = false := by
  obtain ⟨early,dropped⟩ := order
  have cancelled : l.cancelled = false := by simp [Loop.cancelled,restarted]
  cases early <;> cases dropped <;>
    simp [HandOver.labels,follow,client,step,Loop.client,Loop.monitors,Client.setMonitor,Client.live,
      Monitored,restarted,up,channel,connected]

/-- A turn of the loop is a run of the client. -/
theorem Turn.follows (turn : Turn ctx rounds n l t) (going : l.ended = none) :
    ∃ labels, follow client (fun _ _ => True) labels l.client = some t.client := by
  cases turn with
  | stop =>
    refine ⟨[.cancel,.dial 0 false],?_⟩
    simp [follow,client,step,Loop.client,Loop.monitors,Loop.cancelled,going,Client.setMonitor,
      Subscription.attemptReconnect]
  | giveUp _ most =>
    refine ⟨[.dial 0 false],?_⟩
    simp [follow,client,step,Loop.client,Loop.monitors,Loop.cancelled,going,Client.setMonitor,
      Subscription.attemptReconnect,most]
  | refused _ less =>
    refine ⟨[.dial 0 false],?_⟩
    simp [follow,client,step,Loop.client,Loop.monitors,Loop.cancelled,going,Client.setMonitor,
      Subscription.attemptReconnect,Nat.not_le.mpr less]
  | notSetUp _ less =>
    refine ⟨[.dial 0 true] ++ (if (rounds n).lost then [.lose] else []) ++ [.setUp 0 false],?_⟩
    cases lost : (rounds n).lost <;>
      simp [follow,client,step,Loop.client,Loop.monitors,Loop.cancelled,going,Client.setMonitor,
        Client.connect,Client.live,afterConnect,Subscription.attemptReconnect,Nat.not_le.mpr less]
  | restart _ less =>
    refine ⟨[.dial 0 true,.setUp 0 true],?_⟩
    simp [follow,client,step,Loop.client,Loop.monitors,Loop.cancelled,going,Client.setMonitor,
      Client.connect,Client.live,afterConnect,Subscription.attemptReconnect,Nat.not_le.mpr less]

theorem turns_path (ctx : Option Nat) (rounds : Nat → Round) (n : Nat) (l : Loop) :
    Path client (fun _ _ => True) l.client (turns ctx rounds l n).client := by
  induction n with
  | zero => exact .refl
  | succ n ih =>
    cases before : (turns ctx rounds l n).ended with
    | some ending =>
      rw [turns_stay (by simp [before])]
      exact ih
    | none =>
      rw [turns_turn before]
      obtain ⟨labels,followed⟩ := (attemptReconnect_turn ctx rounds n _).follows before
      exact ih.trans (follow_path followed)

/-- From the first loss on, the loop goes through states that the client can be in. -/
theorem turns_reach (ctx : Option Nat) (rounds : Nat → Round) (n : Nat) :
    Reach client (fun _ _ => True) (turns ctx rounds (.start 0) n).client := by
  have noticed : follow client (fun _ _ => True) [.watch 0,.lose,.notice 0] client.init =
    some (Loop.start 0).client := rfl
  exact (follow_reach noticed).append (turns_path ctx rounds n _)

/-- The loop ends in a turn that finds the context done, or ten refusals, or all well. -/
theorem Going.ends (going : Going ctx rounds n l) (turn : Turn ctx rounds n l t)
    {well : Prop} (outcome : doneAt ctx (2 * n) = true ∨ (n = maxAttempts ∧ ∀ j < n, Refused ctx rounds j) ∨
      (¬Refused ctx rounds n ∧ Declared rounds n) ∧ well) :
    t.ended.isSome = true ∧ t.failed = l.failed ∧
      (t.cancelled = true ∨ well ∧ t.ended = some .restarted ∧
        t.connectionUp = true ∧ t.channelUp = true ∧ t.isConnected = true) := by
  have many : n = maxAttempts ∧ (∀ j < n, Refused ctx rounds j) → ¬l.attempts < maxAttempts := by
    rintro ⟨rfl,all⟩
    rw [going.attempts,refusals_full all]
    exact Nat.lt_irrefl _
  cases turn with
  | stop => exact ⟨rfl,rfl,.inl rfl⟩
  | giveUp => exact ⟨rfl,rfl,.inl rfl⟩
  | refused active less refused =>
    rcases outcome with done | all | ⟨⟨connected,_⟩,_⟩
    · rw [active] at done
      contradiction
    · exact absurd less (many all)
    · exact absurd refused connected
  | notSetUp active less _ notSetUp =>
    rcases outcome with done | all | ⟨⟨_,declared⟩,_⟩
    · rw [active] at done
      contradiction
    · exact absurd less (many all)
    · exact absurd declared notSetUp
  | restart active less =>
    rcases outcome with done | all | ⟨_,well⟩
    · rw [active] at done
      contradiction
    · exact absurd less (many all)
    · exact ⟨rfl,rfl,.inr ⟨well,rfl,rfl,rfl,rfl⟩⟩

/-- Which sequences of outcomes the loop is bounded for. -/
theorem givesUp_iff (connection : Nat) (ctx : Option Nat) (rounds : Nat → Round) (order : HandOver) :
    GivesUp connection ctx rounds order ↔ ∃ n ≤ maxAttempts, (∀ j < n, FailsClosed ctx rounds j) ∧
      (doneAt ctx (2 * n) = true ∨ (n = maxAttempts ∧ ∀ j < n, Refused ctx rounds j) ∨
        (¬Refused ctx rounds n ∧ Declared rounds n) ∧ order.early = false ∧ order.dropped = false) := by
  constructor
  · rintro ⟨n,ended,few,closed,outcome⟩
    obtain ⟨k,l,going,turn⟩ := ended_at ended
    revert ended few closed outcome
    generalize turns ctx rounds (.start connection) n = t at turn
    intro ended few closed outcome
    cases turn with
    | stop done => exact ⟨k,going.count ▸ few,going.closed.mp closed,.inl done⟩
    | giveUp _ most =>
      have within : k ≤ maxAttempts := going.count ▸ few
      rw [going.attempts] at most
      exact ⟨k,within,going.closed.mp closed,.inr (.inl (refusals_all most within))⟩
    | refused | notSetUp =>
      simp [going.going] at ended
    | restart _ _ connected declared =>
      have monitored := outcome.resolve_left (by simp [Loop.cancelled])
      exact ⟨k,going.count ▸ few,going.closed.mp closed,
        .inr (.inr ⟨⟨connected,declared⟩,(handOver_iff rfl rfl rfl rfl).mp monitored⟩)⟩
  · rintro ⟨n,within,failing,outcome⟩
    have before : (turns ctx rounds (.start connection) n).ended = none := going_on within failing
    have going := turns_going before
    obtain ⟨ended,failed,outcome⟩ := going.ends (attemptReconnect_turn ctx rounds n _) outcome
    refine ⟨n + 1,?_⟩
    rw [turns_turn before]
    refine ⟨ended,?_,?_,?_⟩
    · rwa [failed,going.count]
    · rw [failed]
      exact going.closed.mpr failing
    · rcases outcome with cancelled | ⟨order,restarted,up,channel,connected⟩
      · exact .inl cancelled
      · exact .inr ((handOver_iff restarted up channel connected).mpr order)

end Turns

/-- The broker takes the connection and refuses the main queue, which it has with other arguments. -/
def mismatched : Round where
  dial := none
  channel := none
  close := none
  declare d := if d = .mainQueue then some "PRECONDITION_FAILED" else none
  lost := false

theorem mismatched_turns (connection n : Nat) :
    (turns none (fun _ => mismatched) (.start connection) n).ended = none ∧
      (turns none (fun _ => mismatched) (.start connection) n).attempts = 0 := by
  induction n with
  | zero => exact ⟨rfl,rfl⟩
  | succ n ih =>
    obtain ⟨going,none_⟩ := ih
    rw [turns_turn going]
    have turn := attemptReconnect_turn none (fun _ => mismatched) n
      (turns none (fun _ => mismatched) (.start connection) n)
    revert turn
    generalize attemptReconnect none mismatched n _ = t
    intro turn
    cases turn with
    | stop done => contradiction
    | giveUp _ most =>
      rw [none_] at most
      contradiction
    | refused _ _ refused => simp [Refused,mismatched,doneAt] at refused
    | notSetUp => exact ⟨going,none_⟩
    | restart _ _ _ declared => exact absurd (declared .mainQueue) (by decide)

/-- A connection that opens and cannot be set up is not counted: the loop never ends. -/
theorem reconnects_forever : ¬∀ connection ctx rounds order, GivesUp connection ctx rounds order := by
  intro claim
  obtain ⟨n,ended,_⟩ := claim 0 none (fun _ => mismatched) ⟨false,false⟩
  rw [(mismatched_turns 0 n).1] at ended
  contradiction

end TinyAutomator.Reconnects
