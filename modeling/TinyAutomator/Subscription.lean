import TinyAutomator.Lib.Pool
import TinyAutomator.Lib.Transition

/-! The RabbitMQ client of a worker over connection losses. A consumer belongs to the
channel it was registered on; a reconnection opens another one. -/
namespace TinyAutomator.Subscription

open Transition

/-- A goroutine of monitorConnection. `leaving` has its deferred reset before it. -/
inductive Monitor where
  | starting
  | watching (connection : Nat)
  | reconnecting (attempts : Nat)
  | settingUp (attempts : Nat)
  | leaving
  | gone
  deriving DecidableEq

/-- Between the two writes of the flag `reconnecting`. -/
def Monitor.inside : Monitor → Prop
  | .watching _ | .reconnecting _ | .settingUp _ | .leaving => True
  | .starting | .gone => False

/-- The client and its broker. Connections are numbered, each with one channel; `consumer`
is the connection on whose channel Subscribe has registered its consumer. -/
structure Client where
  connection : Nat
  connectionUp : Bool
  channelUp : Bool
  isConnected : Bool
  reconnecting : Bool
  cancelled : Bool
  closed : Bool
  monitors : List Monitor
  subscribed : Bool
  consumer : Option Nat
  deriving DecidableEq

def Client.live (s : Client) : Bool := s.connectionUp && s.channelUp

/-- NewRabbitMQClient has returned. -/
def Client.start : Client where
  connection := 0
  connectionUp := true
  channelUp := true
  isConnected := true
  reconnecting := false
  cancelled := false
  closed := false
  monitors := [.starting]
  subscribed := false
  consumer := none

def maxAttempts : Nat := 10

/-- `subscribe`, `dial` and `setUp` go well or not; `lose` is the end of the connection,
`cancel` that of the context. -/
inductive Label where
  | subscribe (ok : Bool)
  | lose
  | watch (i : Nat)
  | notice (i : Nat)
  | dial (i : Nat) (ok : Bool)
  | setUp (i : Nat) (ok : Bool)
  | stopWatch (i : Nat)
  | release (i : Nat)
  | exit
  | cancel
  | close
  deriving DecidableEq

def Client.setMonitor (s : Client) (i : Nat) (m : Monitor) : Client :=
  { s with monitors := s.monitors.set i m }

/-- connect() puts the new connection and its channel in the place of the old ones. -/
def Client.connect (s : Client) : Client := { s with
  connection := s.connection + 1, connectionUp := true, channelUp := true, isConnected := true }

/-- One turn of the loop of attemptReconnect up to connect(). -/
def attemptReconnect (i : Nat) (ok : Bool) (attempts : Nat) (s : Client) : Client :=
  if s.cancelled then s.setMonitor i .leaving
  else if maxAttempts ≤ attempts then { s.setMonitor i .leaving with cancelled := true }
  else if ok then s.connect.setMonitor i (.settingUp attempts)
  else s.setMonitor i (.reconnecting (attempts + 1))

/-- setupQueuesAndExchanges on the new channel; a declare that fails closes it, and the
loop goes on with the attempts it had. -/
def afterConnect (i : Nat) (ok : Bool) (attempts : Nat) (s : Client) : Client :=
  if ok then
    let t := s.setMonitor i .leaving
    { t with monitors := t.monitors ++ [.starting] }
  else { s.setMonitor i (.reconnecting attempts) with channelUp := false }

/-- The worker subscribes once. NotifyClose on a connection that is down already ends the
monitor without an error. -/
def step : Label → Client → Option Client
  | .subscribe ok, s =>
    if s.subscribed then none
    else if ok then
      if s.live then some { s with subscribed := true, consumer := some s.connection } else none
    else some s
  | .lose, s => if s.connectionUp then some { s with connectionUp := false, channelUp := false } else none
  | .watch i, s =>
    match s.monitors[i]? with
    | some .starting =>
      if s.reconnecting then some (s.setMonitor i .gone)
      else some { s.setMonitor i (if s.connectionUp then .watching s.connection else .leaving) with
        reconnecting := true }
    | _ => none
  | .notice i, s =>
    match s.monitors[i]? with
    | some (.watching connection) =>
      if (connection ≠ s.connection ∨ s.connectionUp = false) ∧ s.closed = false then
        some { s.setMonitor i (.reconnecting 0) with isConnected := false }
      else none
    | _ => none
  | .dial i ok, s =>
    match s.monitors[i]? with
    | some (.reconnecting attempts) => some (attemptReconnect i ok attempts s)
    | _ => none
  | .setUp i ok, s =>
    match s.monitors[i]? with
    | some (.settingUp attempts) =>
      if ok = true ∧ s.live = false then none else some (afterConnect i ok attempts s)
    | _ => none
  | .stopWatch i, s =>
    match s.monitors[i]? with
    | some (.watching _) => if s.cancelled then some (s.setMonitor i .leaving) else none
    | _ => none
  | .release i, s =>
    match s.monitors[i]? with
    | some .leaving => some { s.setMonitor i .gone with reconnecting := false }
    | _ => none
  | .exit, s =>
    match s.consumer with
    | some connection =>
      if s.cancelled = true ∨ connection ≠ s.connection ∨ s.live = false then
        some { s with consumer := none }
      else none
    | none => none
  | .cancel, s => some { s with cancelled := true }
  | .close, s => some { s with
      closed := true, cancelled := true, connectionUp := false, channelUp := false }

def client : System Client Label := ⟨.start,step⟩

/-- Connected, and neither closed nor cancelled. -/
def Available (s : Client) : Prop :=
  s.isConnected = true ∧ s.connectionUp = true ∧ s.closed = false ∧ s.cancelled = false

instance : DecidablePred Available := fun s => inferInstanceAs (Decidable
  (s.isConnected = true ∧ s.connectionUp = true ∧ s.closed = false ∧ s.cancelled = false))

/-- The consumer is registered on the current channel, and that is open. -/
def Consuming (s : Client) : Prop := s.consumer = some s.connection ∧ s.live = true

instance : DecidablePred Consuming := fun s =>
  inferInstanceAs (Decidable (s.consumer = some s.connection ∧ s.live = true))

/-- The connection is lost, or its channel after a failed set-up. -/
def Label.breaks : Label → Prop
  | .lose | .setUp _ false => True
  | .subscribe _ | .watch _ | .notice _ | .dial _ _ | .setUp _ true | .stopWatch _ | .release _ | .exit
  | .cancel | .close => False

/-- What a step does, without the lookups that enable it. -/
inductive Step (s : Client) : Label → Client → Prop where
  | subscribe (fresh : s.subscribed = false) (live : s.live = true) :
      Step s (.subscribe true) { s with subscribed := true, consumer := some s.connection }
  | refuse (fresh : s.subscribed = false) : Step s (.subscribe false) s
  | lose (up : s.connectionUp = true) : Step s .lose { s with connectionUp := false, channelUp := false }
  | turnAway {i : Nat} (at_ : s.monitors[i]? = some .starting) : Step s (.watch i) (s.setMonitor i .gone)
  | watch {i : Nat} (at_ : s.monitors[i]? = some .starting) (free : s.reconnecting = false) :
      Step s (.watch i) { s.setMonitor i (if s.connectionUp then .watching s.connection else .leaving) with
        reconnecting := true }
  | notice {i connection : Nat} (at_ : s.monitors[i]? = some (.watching connection))
      (lost : connection ≠ s.connection ∨ s.connectionUp = false) :
      Step s (.notice i) { s.setMonitor i (.reconnecting 0) with isConnected := false }
  | dial {i attempts : Nat} {ok : Bool} (at_ : s.monitors[i]? = some (.reconnecting attempts)) :
      Step s (.dial i ok) (attemptReconnect i ok attempts s)
  | setUp {i attempts : Nat} {ok : Bool} (at_ : s.monitors[i]? = some (.settingUp attempts)) :
      Step s (.setUp i ok) (afterConnect i ok attempts s)
  | stopWatch {i connection : Nat} (at_ : s.monitors[i]? = some (.watching connection)) :
      Step s (.stopWatch i) (s.setMonitor i .leaving)
  | release {i : Nat} (at_ : s.monitors[i]? = some .leaving) :
      Step s (.release i) { s.setMonitor i .gone with reconnecting := false }
  | exit {connection : Nat} (consumer : s.consumer = some connection)
      (ended : s.cancelled = true ∨ connection ≠ s.connection ∨ s.live = false) :
      Step s .exit { s with consumer := none }
  | cancel : Step s .cancel { s with cancelled := true }
  | close : Step s .close { s with
      closed := true, cancelled := true, connectionUp := false, channelUp := false }

theorem step_cases {s t : Client} {label : Label} (stepped : step label s = some t) : Step s label t := by
  cases label with
  | subscribe ok =>
    simp only [step] at stepped
    split at stepped
    next => contradiction
    next fresh =>
      have fresh : s.subscribed = false := by simpa using fresh
      cases ok with
      | true =>
        simp only [if_true] at stepped
        split at stepped
        next live => cases stepped; exact .subscribe fresh live
        next => contradiction
      | false => cases stepped; exact .refuse fresh
  | lose =>
    simp only [step] at stepped
    split at stepped
    next up => cases stepped; exact .lose up
    next => contradiction
  | watch i =>
    simp only [step] at stepped
    split at stepped
    next at_ =>
      split at stepped
      next => cases stepped; exact .turnAway at_
      next free => cases stepped; exact .watch at_ (by simpa using free)
    next => contradiction
  | notice i =>
    simp only [step] at stepped
    split at stepped
    next at_ =>
      split at stepped
      next lost => cases stepped; exact .notice at_ lost.1
      next => contradiction
    next => contradiction
  | dial i ok =>
    simp only [step] at stepped
    split at stepped
    next at_ => cases stepped; exact .dial at_
    next => contradiction
  | setUp i ok =>
    simp only [step] at stepped
    split at stepped
    next at_ =>
      split at stepped
      next => contradiction
      next => cases stepped; exact .setUp at_
    next => contradiction
  | stopWatch i =>
    simp only [step] at stepped
    split at stepped
    next at_ =>
      split at stepped
      next => cases stepped; exact .stopWatch at_
      next => contradiction
    next => contradiction
  | release i =>
    simp only [step] at stepped
    split at stepped
    next at_ => cases stepped; exact .release at_
    next => contradiction
  | exit =>
    simp only [step] at stepped
    split at stepped
    next consumer =>
      split at stepped
      next ended => cases stepped; exact .exit consumer ended
      next => contradiction
    next => contradiction
  | cancel => cases stepped; exact .cancel
  | close => cases stepped; exact .close

section Monitors

variable {s t : Client} {label : Label} {i : Nat} {m : Monitor} {attempts : Nat} {ok : Bool}

/-- One monitor at a time is between the writes of the flag, and it knows the connection. -/
structure Watched (s : Client) : Prop where
  alone : Pool.Alone Monitor.inside s.monitors
  flagged : ∀ m ∈ s.monitors, m.inside → s.reconnecting = true
  watching : ∀ connection, Monitor.watching connection ∈ s.monitors → connection = s.connection
  down : ∀ attempts, Monitor.reconnecting attempts ∈ s.monitors → s.live = false

theorem start_watched : Watched .start := by
  constructor
  · intro i j a b geti getj inside _
    have member := List.mem_of_getElem? geti
    simp only [Client.start,List.mem_singleton] at member
    rw [member] at inside
    exact inside.elim
  · simp [Client.start,Monitor.inside]
  · simp [Client.start]
  · simp [Client.start]

theorem Watched.others (watched : Watched s) (at_ : s.monitors[i]? = some m) (inside : m.inside) :
    ∀ j x, s.monitors[j]? = some x → j ≠ i → ¬x.inside :=
  fun j x get different within => different (watched.alone j i x m get at_ within inside)

theorem Watched.nobody (watched : Watched s) (down : s.reconnecting = false) :
    ∀ (j : Nat) x, s.monitors[j]? = some x → j ≠ i → ¬x.inside := by
  intro j x get _ within
  have up := watched.flagged x (List.mem_of_getElem? get) within
  rw [down] at up
  contradiction

/-- The move of a monitor keeps what is known while the others are outside. -/
theorem Watched.move (watched : Watched s) (at_ : s.monitors[i]? = some m)
    (others : ∀ j x, s.monitors[j]? = some x → j ≠ i → ¬x.inside)
    {n : Monitor} (monitors : t.monitors = s.monitors.set i n) (flag : n.inside → t.reconnecting = true)
    (watching : ∀ connection, n = .watching connection → connection = t.connection)
    (down : ∀ attempts, n = .reconnecting attempts → t.live = false) : Watched t := by
  have outside : ∀ x ∈ t.monitors, x = n ∨ ¬x.inside := by
    intro x member
    rw [monitors] at member
    rcases Pool.mem_set_cases member with rfl | ⟨j,different,get⟩
    · exact .inl rfl
    · exact .inr (others j x get different)
  constructor
  · rw [monitors]
    exact watched.alone.set at_ fun _ => .inr others
  · intro x member within
    rcases outside x member with rfl | out
    · exact flag within
    · exact absurd within out
  · intro connection member
    rcases outside _ member with same | out
    · exact watching connection same.symm
    · exact absurd trivial out
  · intro attempts member
    rcases outside _ member with same | out
    · exact down attempts same.symm
    · exact absurd trivial out

theorem Watched.same (watched : Watched s) (monitors : t.monitors = s.monitors)
    (flag : t.reconnecting = s.reconnecting) (connection : t.connection = s.connection)
    (down : s.live = false → t.live = false) : Watched t := by
  constructor
  · rw [monitors]; exact watched.alone
  · rw [monitors,flag]; exact watched.flagged
  · rw [monitors,connection]; exact watched.watching
  · rw [monitors]; exact fun attempts member => down (watched.down attempts member)

theorem Watched.append (watched : Watched s) :
    Watched { s with monitors := s.monitors ++ [.starting] } := by
  constructor
  · exact watched.alone.append id
  · exact Pool.forall_append watched.flagged (fun inside => inside.elim)
  · intro connection member
    exact watched.watching connection (by simpa using member)
  · intro attempts member
    exact watched.down attempts (by simpa using member)

/-- A second monitor goes when it finds the flag up. -/
theorem Watched.turnedAway (watched : Watched s) (at_ : s.monitors[i]? = some m) :
    Watched (s.setMonitor i .gone) := by
  have still : ∀ x ∈ (s.setMonitor i .gone).monitors, x.inside → x ∈ s.monitors := by
    intro x member inside
    rcases Pool.mem_set_cases member with rfl | ⟨_,_,get⟩
    · exact inside.elim
    · exact List.mem_of_getElem? get
  constructor
  · exact watched.alone.set at_ fun inside => inside.elim
  · exact fun x member inside => watched.flagged x (still x member inside) inside
  · exact fun connection member => watched.watching connection (still _ member trivial)
  · exact fun attempts member => watched.down attempts (still _ member trivial)

/-- What a turn of attemptReconnect leaves of the client. -/
theorem attemptReconnect_cases (i : Nat) (ok : Bool) (attempts : Nat) (s : Client) :
    s.cancelled = true ∧ attemptReconnect i ok attempts s = s.setMonitor i .leaving ∨
    attemptReconnect i ok attempts s = { s.setMonitor i .leaving with cancelled := true } ∨
    attemptReconnect i ok attempts s = s.connect.setMonitor i (.settingUp attempts) ∨
    attemptReconnect i ok attempts s = s.setMonitor i (.reconnecting (attempts + 1)) := by
  rw [attemptReconnect]
  split
  next cancelled => exact .inl ⟨cancelled,rfl⟩
  next =>
    split
    next => exact .inr (.inl rfl)
    next =>
      split
      next => exact .inr (.inr (.inl rfl))
      next => exact .inr (.inr (.inr rfl))

theorem Watched.inside (watched : Watched s) (at_ : s.monitors[i]? = some m) (inside : m.inside)
    {n : Monitor} (monitors : t.monitors = s.monitors.set i n) (flag : t.reconnecting = s.reconnecting)
    (watching : ∀ connection, n = .watching connection → connection = t.connection)
    (down : ∀ attempts, n = .reconnecting attempts → t.live = false) : Watched t :=
  watched.move at_ (watched.others at_ inside) monitors
    (fun _ => flag.trans (watched.flagged m (List.mem_of_getElem? at_) inside)) watching down

theorem Watched.lost {connection : Nat} (watched : Watched s)
    (at_ : s.monitors[i]? = some (.watching connection))
    (lost : connection ≠ s.connection ∨ s.connectionUp = false) : s.connectionUp = false :=
  lost.resolve_left (absurd (watched.watching connection (List.mem_of_getElem? at_)))

theorem Watched.dial (watched : Watched s) (at_ : s.monitors[i]? = some (.reconnecting attempts)) :
    Watched (attemptReconnect i ok attempts s) := by
  have down := watched.down attempts (List.mem_of_getElem? at_)
  rcases attemptReconnect_cases i ok attempts s with ⟨_,left⟩ | left | dialled | failed
  · rw [left]
    exact watched.inside at_ trivial rfl rfl (fun _ same => by contradiction)
      (fun _ same => by contradiction)
  · rw [left]
    exact watched.inside at_ trivial rfl rfl (fun _ same => by contradiction)
      (fun _ same => by contradiction)
  · rw [dialled]
    exact watched.inside at_ trivial rfl rfl (fun _ same => by contradiction)
      (fun _ same => by contradiction)
  · rw [failed]
    exact watched.inside at_ trivial rfl rfl (fun _ same => by contradiction) (fun _ _ => down)

theorem Watched.setUp (watched : Watched s) (at_ : s.monitors[i]? = some (.settingUp attempts)) :
    Watched (afterConnect i ok attempts s) := by
  rw [afterConnect]
  split
  next =>
    have left : Watched (s.setMonitor i .leaving) :=
      watched.inside at_ trivial rfl rfl (fun _ same => by contradiction) (fun _ same => by contradiction)
    exact left.append
  next =>
    refine watched.inside at_ trivial rfl rfl ?_ ?_
    · intro connection same
      contradiction
    · intro _ _
      simp [Client.live]

theorem Watched.step (watched : Watched s) (stepped : step label s = some t) : Watched t := by
  cases step_cases stepped with
  | subscribe | refuse | exit | cancel => exact watched.same rfl rfl rfl id
  | lose | close => exact watched.same rfl rfl rfl (fun _ => rfl)
  | turnAway at_ => exact watched.turnedAway at_
  | watch at_ free =>
    apply watched.move at_ (watched.nobody free) rfl (fun _ => rfl)
    · intro connection same
      split at same
      next => cases same; rfl
      next => contradiction
    · intro attempts same
      split at same <;> contradiction
  | notice at_ lost =>
    have down := watched.lost at_ lost
    refine watched.inside at_ trivial rfl rfl ?_ ?_
    · intro connection same
      contradiction
    · intro attempts _
      simp [Client.live,Client.setMonitor,down]
  | dial at_ => exact watched.dial at_
  | setUp at_ => exact watched.setUp at_
  | stopWatch at_ =>
    exact watched.inside at_ trivial rfl rfl (fun _ same => by contradiction) (fun _ same => by contradiction)
  | release at_ =>
    exact watched.move at_ (watched.others at_ trivial) rfl (fun within => within.elim)
      (fun _ same => by contradiction) (fun _ same => by contradiction)

end Monitors

/-- The consumer of Subscribe is on the channel of connection `g`, and that is current. -/
def Kept (g : Nat) (s : Client) : Prop :=
  s.subscribed = true ∧ s.consumer = some g ∧ s.connection = g ∧ s.live = true

/-- That channel is gone, and with it the consumer, sooner or later. -/
structure Lost (g : Nat) (s : Client) : Prop where
  subscribed : s.subscribed = true
  consumer : s.consumer = none ∨ s.consumer = some g
  behind : g ≤ s.connection
  down : s.connection = g → s.live = false

section Consumer

variable {s t : Client} {label : Label} {g i : Nat} {ok : Bool} {attempts : Nat}

theorem cancelled_step (cancelled : s.cancelled = true) (stepped : step label s = some t) :
    t.cancelled = true := by
  cases step_cases stepped with
  | dial at_ => simp [attemptReconnect,Client.setMonitor,cancelled]
  | setUp at_ => rw [afterConnect]; split <;> exact cancelled
  | cancel | close => rfl
  | _ => exact cancelled

theorem kept_step (watched : Watched s) (kept : Kept g s) (whole : ¬label.breaks)
    (stepped : step label s = some t) : t.cancelled = true ∨ Kept g t := by
  obtain ⟨subscribed,consumer,connection,live⟩ := kept
  have still : Kept g s := ⟨subscribed,consumer,connection,live⟩
  cases step_cases stepped with
  | subscribe fresh => simp [subscribed] at fresh
  | refuse fresh => simp [subscribed] at fresh
  | lose => exact absurd trivial whole
  | notice at_ lost =>
    have down := watched.lost at_ lost
    simp [Client.live,down] at live
  | dial at_ =>
    have down := watched.down _ (List.mem_of_getElem? at_)
    rw [live] at down
    contradiction
  | @setUp i attempts ok at_ =>
    cases ok with
    | false => exact absurd trivial whole
    | true => exact .inr still
  | exit own ended =>
    rw [consumer] at own
    cases own
    left
    simpa [connection,live] using ended
  | cancel => exact .inl rfl
  | close => exact .inl rfl
  | turnAway | watch | stopWatch | release => exact .inr still

theorem breaks_step (kept : Kept g s) (breaks : label.breaks) (stepped : step label s = some t) :
    Lost g t := by
  obtain ⟨subscribed,consumer,connection,live⟩ := kept
  cases step_cases stepped with
  | lose => exact ⟨subscribed,.inr consumer,Nat.le_of_eq connection.symm,fun _ => rfl⟩
  | @setUp i attempts ok at_ =>
    cases ok with
    | true => exact breaks.elim
    | false =>
      exact ⟨subscribed,.inr consumer,Nat.le_of_eq connection.symm,
        fun _ => by simp [afterConnect,Client.live]⟩
  | _ => exact breaks.elim

/-- Only connect() opens a channel, and it counts the connections up. -/
theorem lost_step (lost : Lost g s) (stepped : step label s = some t) : Lost g t := by
  obtain ⟨subscribed,consumer,behind,down⟩ := lost
  cases step_cases stepped with
  | subscribe fresh => simp [subscribed] at fresh
  | lose => exact ⟨subscribed,consumer,behind,fun _ => rfl⟩
  | @dial i attempts ok at_ =>
    rcases attemptReconnect_cases i ok attempts s with ⟨_,left⟩ | left | dialled | failed
    · rw [left]; exact ⟨subscribed,consumer,behind,down⟩
    · rw [left]; exact ⟨subscribed,consumer,behind,down⟩
    · rw [dialled]
      refine ⟨subscribed,consumer,Nat.le_succ_of_le behind,fun same => ?_⟩
      have passed : s.connection + 1 = g := same
      omega
    · rw [failed]; exact ⟨subscribed,consumer,behind,down⟩
  | @setUp i attempts ok at_ =>
    cases ok with
    | true => exact ⟨subscribed,consumer,behind,down⟩
    | false => exact ⟨subscribed,consumer,behind,fun _ => by simp [afterConnect,Client.live]⟩
  | exit => exact ⟨subscribed,.inl rfl,behind,down⟩
  | close => exact ⟨subscribed,consumer,behind,fun _ => rfl⟩
  | _ => exact ⟨subscribed,consumer,behind,down⟩

theorem kept_subscribe (subscribed : step (.subscribe true) s = some t) : Kept s.connection t := by
  cases step_cases subscribed with
  | subscribe fresh live => exact ⟨rfl,rfl,rfl,live⟩

theorem Lost.not_consuming (lost : Lost g s) : ¬Consuming s := by
  rintro ⟨consumer,live⟩
  rcases lost.consumer with none | old
  · rw [none] at consumer
    contradiction
  · rw [old] at consumer
    have same : s.connection = g := (Option.some.inj consumer).symm
    rw [lost.down same] at live
    contradiction

theorem Kept.consuming (kept : Kept g s) : Consuming s := by
  obtain ⟨_,consumer,connection,live⟩ := kept
  exact ⟨by rw [consumer,connection],live⟩

variable {labels : List Label}

theorem follow_cancelled (cancelled : s.cancelled = true)
    (followed : follow client (fun _ _ => True) labels s = some t) : t.cancelled = true :=
  (follow_path followed).invariant (·.cancelled = true) cancelled
    fun _ _ _ cancelled _ stepped => cancelled_step cancelled stepped

theorem follow_lost (lost : Lost g s) (followed : follow client (fun _ _ => True) labels s = some t) :
    Lost g t :=
  (follow_path followed).invariant (Lost g) lost fun _ _ _ lost _ stepped => lost_step lost stepped

/-- Over a whole run the consumer lasts until the first label that breaks its channel. -/
theorem follow_kept (watched : Watched s) (kept : Kept g s)
    (followed : follow client (fun _ _ => True) labels s = some t) :
    t.cancelled = true ∨ (∀ label ∈ labels, ¬label.breaks) ∧ Kept g t ∨
    (∃ label ∈ labels, label.breaks) ∧ Lost g t := by
  induction labels generalizing s with
  | nil => cases followed; exact .inr (.inl ⟨by simp,kept⟩)
  | cons label rest ih =>
    obtain ⟨_,u,stepped,followed⟩ := follow_cons followed
    have after := watched.step stepped
    by_cases breaks : label.breaks
    · have lost := follow_lost (breaks_step kept breaks stepped) followed
      exact .inr (.inr ⟨⟨label,List.mem_cons_self,breaks⟩,lost⟩)
    · rcases kept_step watched kept breaks stepped with ended | kept
      · exact .inl (follow_cancelled ended followed)
      · rcases ih after kept followed with ended | ⟨whole,kept⟩ | ⟨⟨late,member,breaks⟩,lost⟩
        · exact .inl ended
        · exact .inr (.inl ⟨List.forall_mem_cons.mpr ⟨breaks,whole⟩,kept⟩)
        · exact .inr (.inr ⟨⟨late,List.mem_cons_of_mem _ member,breaks⟩,lost⟩)

end Consumer

theorem reach_watched {s : Client} (reach : Reach client (fun _ _ => True) s) : Watched s :=
  reach.invariant Watched start_watched fun _ _ _ _ watched _ stepped => watched.step stepped

/-- An available client consumes exactly while the channel it subscribed on has not been lost. -/
theorem consuming_iff {s s₀ t : Client} {labels : List Label}
    (reach : Reach client (fun _ _ => True) s) (subscribed : step (.subscribe true) s = some s₀)
    (followed : follow client (fun _ _ => True) labels s₀ = some t) (available : Available t) :
    Consuming t ↔ ∀ label ∈ labels, ¬label.breaks := by
  have watched := (reach_watched reach).step subscribed
  obtain ⟨_,_,_,active⟩ := available
  rcases follow_kept watched (kept_subscribe subscribed) followed with
    ended | ⟨whole,kept⟩ | ⟨⟨label,member,breaks⟩,lost⟩
  · rw [active] at ended
    contradiction
  · exact ⟨fun _ => whole,fun _ => kept.consuming⟩
  · exact ⟨fun consuming => absurd consuming lost.not_consuming,fun whole => absurd breaks (whole label member)⟩

/-- The worker as it has started, subscribed. -/
def subscribedClient : Client := { Client.start with subscribed := true, consumer := some 0 }

theorem consuming_watched : Available { subscribedClient with
      monitors := [.watching 0], reconnecting := true } ∧
    (Consuming { subscribedClient with monitors := [.watching 0], reconnecting := true } ↔
      ∀ label ∈ [Label.watch 0], ¬label.breaks) :=
  ⟨by decide,@consuming_iff .start subscribedClient _ [.watch 0] .refl rfl rfl (by decide)⟩

/-- One outage is enough: the worker is connected again and hears nothing. -/
theorem reconnected_deaf : ¬∀ (s s₀ t : Client) (labels : List Label),
    Reach client (fun _ _ => True) s → step (.subscribe true) s = some s₀ →
    follow client (fun _ _ => True) labels s₀ = some t → Available t → Consuming t := by
  intro claim
  have consuming := claim .start subscribedClient
    { subscribedClient with
      connection := 1, reconnecting := true, monitors := [.leaving,.starting] }
    [.watch 0,.lose,.notice 0,.dial 0 true,.setUp 0 true] .refl rfl rfl (by decide)
  exact absurd consuming (by decide)

end TinyAutomator.Subscription
