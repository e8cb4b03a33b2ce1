import TinyAutomator.Subscription

/-! Who watches the current connection of the RabbitMQ client. The duty goes from a monitor
to the successor it starts, which has to find the flag of its predecessor down. -/
namespace TinyAutomator.Supervision

open Transition Subscription

/-- The goroutine is going to call NotifyClose, or to start one that does. -/
def AboutToMonitor : Monitor → Prop
  | .starting | .reconnecting _ | .settingUp _ => True
  | .watching _ | .leaving | .gone => False

def OnDuty : Monitor → Prop
  | .starting | .reconnecting _ | .settingUp _ | .watching _ => True
  | .leaving | .gone => False

instance : DecidablePred AboutToMonitor := fun m => by
  cases m <;> rw [AboutToMonitor] <;> infer_instance

/-- Exactly one monitorConnection waits on the close notification of the current connection. -/
def Supervised (s : Client) : Prop :=
  s.isConnected = true → s.cancelled = false → (∀ m ∈ s.monitors, ¬AboutToMonitor m) →
    s.monitors.count (.watching s.connection) = 1

instance : DecidablePred Supervised := fun s => inferInstanceAs (Decidable
  (s.isConnected = true → s.cancelled = false → (∀ m ∈ s.monitors, ¬AboutToMonitor m) →
    s.monitors.count (.watching s.connection) = 1))

/-- A monitor that takes the lock finds the flag down and the connection still up. -/
def HandedOver (s : Client) : Label → Prop
  | .watch _ => s.cancelled = true ∨ s.reconnecting = false ∧ s.connectionUp = true
  | .subscribe _ | .lose | .notice _ | .dial _ _ | .setUp _ _ | .stopWatch _ | .release _ | .exit
  | .cancel | .close => True

instance (s : Client) (label : Label) : Decidable (HandedOver s label) := by
  cases label <;> rw [HandedOver] <;> infer_instance

/-- The monitor at `i` has the duty, alone. Whoever is about to call NotifyClose, or declares
the queues before that, has a client that says it is connected. -/
structure Duty (s : Client) (i : Nat) (m : Monitor) : Prop where
  at_ : s.monitors[i]? = some m
  onDuty : OnDuty m
  alone : ∀ j x, s.monitors[j]? = some x → j ≠ i → ¬OnDuty x
  connected : (m = .starting ∨ ∃ attempts, m = .settingUp attempts) → s.isConnected = true

section Duty

variable {s t : Client} {label : Label} {i k : Nat} {m n : Monitor}

theorem aboutToMonitor_onDuty (about : AboutToMonitor m) : OnDuty m := by
  cases m with
  | starting | reconnecting | settingUp => trivial
  | watching | leaving | gone => exact about.elim

theorem onDuty_cases (onDuty : OnDuty m) : AboutToMonitor m ∨ ∃ connection, m = .watching connection := by
  cases m with
  | starting | reconnecting | settingUp => exact .inl trivial
  | watching connection => exact .inr ⟨connection,rfl⟩
  | leaving | gone => exact onDuty.elim

/-- A monitor with something to do is the one that has the duty. -/
theorem Duty.same (duty : Duty s i m) (get : s.monitors[k]? = some n) (onDuty : OnDuty n) :
    k = i ∧ n = m := by
  have same : k = i := by
    by_contra different
    exact duty.alone k n get different onDuty
  subst same
  exact ⟨rfl,Option.some.inj (get.symm.trans duty.at_)⟩

theorem Duty.move (duty : Duty s i m) (onDuty : OnDuty n) (monitors : t.monitors = s.monitors.set i n)
    (connected : (n = .starting ∨ ∃ attempts, n = .settingUp attempts) → t.isConnected = true) :
    Duty t i n := by
  refine ⟨?_,onDuty,?_,connected⟩
  · rw [monitors]
    exact Pool.get_set_self duty.at_
  · intro j x get different
    rw [monitors] at get
    rcases Pool.get_set_cases get with ⟨same,_⟩ | ⟨_,old⟩
    · exact absurd same different
    · exact duty.alone j x old different

theorem Duty.keep (duty : Duty s i m) (monitors : t.monitors = s.monitors)
    (connected : t.isConnected = s.isConnected) : Duty t i m := by
  refine ⟨?_,duty.onDuty,?_,fun arriving => connected.trans (duty.connected arriving)⟩
  · rw [monitors]; exact duty.at_
  · rw [monitors]; exact duty.alone

theorem Duty.other (duty : Duty s i m) (get : s.monitors[k]? = some n) (idle : ¬OnDuty n)
    {other : Monitor} (rest : ¬OnDuty other) (monitors : t.monitors = s.monitors.set k other)
    (connected : t.isConnected = s.isConnected) : Duty t i m := by
  have different : i ≠ k := by
    rintro rfl
    have same : n = m := Option.some.inj (get.symm.trans duty.at_)
    exact idle (same ▸ duty.onDuty)
  refine ⟨?_,duty.onDuty,?_,fun arriving => connected.trans (duty.connected arriving)⟩
  · rw [monitors,List.getElem?_set_ne (Ne.symm different)]
    exact duty.at_
  · intro j x old other
    rw [monitors] at old
    rcases Pool.get_set_cases old with ⟨_,rfl⟩ | ⟨_,there⟩
    · exact rest
    · exact duty.alone j x there other

/-- The one on duty leaves, and has appended its successor. -/
theorem Duty.succeed (duty : Duty s i m) (connected : t.isConnected = true)
    (monitors : t.monitors = s.monitors.set i .leaving ++ [.starting]) :
    Duty t s.monitors.length .starting := by
  refine ⟨?_,trivial,?_,fun _ => connected⟩
  · rw [monitors]
    simp
  · intro j x get different
    rw [monitors,List.getElem?_append] at get
    split at get
    next =>
      rcases Pool.get_set_cases get with ⟨_,rfl⟩ | ⟨other,old⟩
      · exact id
      · exact duty.alone j x old other
    next beyond =>
      have single : j = s.monitors.length := by
        obtain ⟨bound,_⟩ := List.getElem?_eq_some_iff.mp get
        simp only [List.length_set] at bound beyond
        simp only [List.length_singleton] at bound
        omega
      exact absurd single different

theorem Duty.given_up (duty : Duty s i m) (rest : ¬OnDuty n) (monitors : t.monitors = s.monitors.set i n) :
    ∀ x ∈ t.monitors, ¬OnDuty x := by
  intro x member
  rw [monitors] at member
  rcases Pool.mem_set_cases member with rfl | ⟨j,different,get⟩
  · exact rest
  · exact duty.alone j x get different

/-- The one on duty is nowhere else in the pool. -/
theorem Duty.count (duty : Duty s i m) : s.monitors.count m = 1 := by
  have single : Pool.Alone (· = m) s.monitors := by
    intro j k a b getj getk first second
    have onj := duty.same getj (first ▸ duty.onDuty)
    have onk := duty.same getk (second ▸ duty.onDuty)
    exact onj.1.trans onk.1.symm
  have most : s.monitors.count m ≤ 1 := single.count
  have least : 0 < s.monitors.count m := List.count_pos_iff.mpr (List.mem_of_getElem? duty.at_)
  omega

theorem Duty.supervised (duty : Duty s i m) (watched : Watched s) : Supervised s := by
  intro _ _ settled
  have member := List.mem_of_getElem? duty.at_
  rcases onDuty_cases duty.onDuty with about | ⟨connection,rfl⟩
  · exact absurd about (settled m member)
  · rw [← watched.watching connection member]
    exact duty.count

/-- The client says it is connected, and nobody watches nor is going to. -/
theorem not_supervised (connected : t.isConnected = true) (active : t.cancelled = false)
    (nobody : ∀ x ∈ t.monitors, ¬OnDuty x) : ¬Supervised t := by
  intro supervised
  have one := supervised connected active fun m member about => nobody m member (aboutToMonitor_onDuty about)
  have there : Monitor.watching t.connection ∈ t.monitors := by
    apply List.count_pos_iff.mp
    omega
  exact nobody _ there trivial

/-- What the check of the flag comes to. -/
theorem watch_cases (stepped : step (.watch k) s = some t) : s.monitors[k]? = some .starting ∧
    (s.reconnecting = true ∧ t = s.setMonitor k .gone ∨
    s.reconnecting = false ∧ t = { s.setMonitor k (if s.connectionUp then .watching s.connection else .leaving) with
      reconnecting := true }) := by
  simp only [step] at stepped
  split at stepped
  next at_ =>
    split at stepped
    next up => cases stepped; exact ⟨at_,.inl ⟨up,rfl⟩⟩
    next free => cases stepped; exact ⟨at_,.inr ⟨by simpa using free,rfl⟩⟩
  next => contradiction

theorem stopWatch_cancelled (stepped : step (.stopWatch k) s = some t) : s.cancelled = true := by
  simp only [step] at stepped
  split at stepped
  next =>
    split at stepped
    next cancelled => exact cancelled
    next => contradiction
  next => contradiction

/-- The monitor that takes the lock in time is the one on duty, and stays it. -/
theorem Duty.watch (duty : Duty s i m) (free : s.reconnecting = false) (up : s.connectionUp = true)
    (stepped : step (.watch k) s = some t) : ∃ i m, Duty t i m := by
  obtain ⟨at_,⟨flagged,_⟩ | ⟨_,rfl⟩⟩ := watch_cases stepped
  · rw [free] at flagged
    contradiction
  · obtain ⟨rfl,rfl⟩ := duty.same at_ trivial
    refine ⟨k,.watching s.connection,duty.move trivial ?_ ?_⟩
    · simp [Client.setMonitor,up]
    · intro arriving
      simp at arriving

theorem Duty.notice {connection : Nat} (duty : Duty s i m)
    (at_ : s.monitors[k]? = some (.watching connection)) :
    Duty { s.setMonitor k (.reconnecting 0) with isConnected := false } k (.reconnecting 0) := by
  obtain ⟨rfl,rfl⟩ := duty.same at_ trivial
  exact duty.move trivial rfl fun arriving => by simp at arriving

theorem Duty.dial {attempts : Nat} {ok : Bool} (duty : Duty s i m)
    (at_ : s.monitors[k]? = some (.reconnecting attempts)) (active : s.cancelled = false) :
    (attemptReconnect k ok attempts s).cancelled = true ∨ ∃ n, Duty (attemptReconnect k ok attempts s) k n := by
  obtain ⟨rfl,rfl⟩ := duty.same at_ trivial
  rcases attemptReconnect_cases k ok attempts s with ⟨ended,_⟩ | given | dialled | failed
  · rw [active] at ended
    contradiction
  · exact .inl (by rw [given])
  · right
    rw [dialled]
    exact ⟨.settingUp attempts,duty.move trivial rfl fun _ => rfl⟩
  · right
    rw [failed]
    exact ⟨.reconnecting (attempts + 1),duty.move trivial rfl fun arriving => by simp at arriving⟩

theorem Duty.setUp {attempts : Nat} {ok : Bool} (duty : Duty s i m)
    (at_ : s.monitors[k]? = some (.settingUp attempts)) : ∃ i m, Duty (afterConnect k ok attempts s) i m := by
  obtain ⟨rfl,rfl⟩ := duty.same at_ trivial
  rw [afterConnect]
  split
  next => exact ⟨_,_,duty.succeed (duty.connected (.inr ⟨attempts,rfl⟩)) rfl⟩
  next => exact ⟨k,.reconnecting attempts,duty.move trivial rfl fun arriving => by simp at arriving⟩

end Duty

/-- While the context lasts, one goroutine has the duty. -/
def Kept (s : Client) : Prop := s.cancelled = true ∨ ∃ i m, Duty s i m

theorem start_kept : Kept .start := by
  refine .inr ⟨0,.starting,rfl,trivial,?_,fun _ => rfl⟩
  intro j x get different
  cases j with
  | zero => exact absurd rfl different
  | succ j => simp [Client.start] at get

theorem Kept.step {s t : Client} {label : Label} (kept : Kept s) (allowed : HandedOver s label)
    (stepped : step label s = some t) : Kept t := by
  by_cases active : s.cancelled = true
  · exact .inl (cancelled_step active stepped)
  obtain ⟨i,m,duty⟩ := kept.resolve_left active
  have active : s.cancelled = false := by simpa using active
  cases step_cases stepped with
  | turnAway | watch =>
    obtain ⟨free,up⟩ := allowed.resolve_left (by simp [active])
    exact .inr (duty.watch free up stepped)
  | stopWatch =>
    have ended := stopWatch_cancelled stepped
    rw [active] at ended
    contradiction
  | subscribe | refuse | lose | exit => exact .inr ⟨i,m,duty.keep rfl rfl⟩
  | notice at_ => exact .inr ⟨_,_,duty.notice at_⟩
  | dial at_ =>
    rcases duty.dial at_ active with ended | ⟨n,duty⟩
    · exact .inl ended
    · exact .inr ⟨_,n,duty⟩
  | setUp at_ => exact .inr (duty.setUp at_)
  | release at_ => exact .inr ⟨i,m,duty.other at_ id id rfl rfl⟩
  | cancel | close => exact .inl rfl

theorem Kept.supervised {s : Client} (kept : Kept s) (watched : Watched s) : Supervised s := by
  rcases kept with ended | ⟨i,m,duty⟩
  · intro _ active
    rw [active] at ended
    contradiction
  · exact duty.supervised watched

/-- The monitor that comes too early, or too late, goes, and with it the duty. -/
theorem Kept.lost {s t : Client} {label : Label} (kept : Kept s) (missed : ¬HandedOver s label)
    (stepped : Subscription.step label s = some t) : ¬Supervised t := by
  cases label with
  | watch k =>
    have active : s.cancelled = false := by
      by_contra ended
      exact missed (.inl (by simpa using ended))
    obtain ⟨i,m,duty⟩ := kept.resolve_left (by simp [active])
    obtain ⟨at_,⟨_,rfl⟩ | ⟨free,rfl⟩⟩ := watch_cases stepped
    · obtain ⟨rfl,rfl⟩ := duty.same at_ trivial
      exact not_supervised (duty.connected (.inl rfl)) active (duty.given_up id rfl)
    · obtain ⟨rfl,rfl⟩ := duty.same at_ trivial
      have down : s.connectionUp = false := by
        by_contra up
        exact missed (.inr ⟨free,by simpa using up⟩)
      refine not_supervised (duty.connected (.inl rfl)) active (duty.given_up (n := .leaving) id ?_)
      simp [Client.setMonitor,down]
  | _ => exact absurd trivial missed

theorem reach_kept {s : Client} (reach : Reach client HandedOver s) : Kept s :=
  reach.invariant Kept start_kept fun _ _ _ _ kept allowed stepped => kept.step allowed stepped

/-- The connection is supervised for as long as every hand-over goes well, and no longer. -/
theorem supervised_while_handed_over {s : Client} (reach : Reach client HandedOver s) : Supervised s ∧
    ∀ label t, ¬HandedOver s label → step label s = some t → ¬Supervised t := by
  constructor
  · exact (reach_kept reach).supervised (reach_watched (reach.mono fun _ _ _ => trivial))
  · intro label t missed stepped
    exact (reach_kept reach).lost missed stepped

theorem reconnected_supervised : ∃ s, Reach client HandedOver s ∧
    (s.connection = 1 ∧ s.monitors = [.gone,.watching 1]) ∧ Supervised s := by
  have run : ∃ s, Reach client HandedOver s ∧ (s.connection = 1 ∧ s.monitors = [.gone,.watching 1]) :=
    follow_exists [.watch 0,.lose,.notice 0,.dial 0 true,.setUp 0 true,.release 0,.watch 1] (by decide +kernel)
  obtain ⟨s,reach,second⟩ := run
  exact ⟨s,reach,second,(supervised_while_handed_over reach).1⟩

/-- The successor looks at the flag before the deferred reset of its predecessor, and goes. -/
theorem unsupervised : ¬∀ s, Reach client (fun _ _ => True) s → Supervised s := by
  have run : ∃ s, Reach client (fun _ _ => True) s ∧ ¬Supervised s :=
    follow_exists [.watch 0,.lose,.notice 0,.dial 0 true,.setUp 0 true,.watch 1,.release 0] (by decide +kernel)
  obtain ⟨s,reach,lost⟩ := run
  exact fun claim => lost (claim s reach)

end TinyAutomator.Supervision
