import TinyAutomator.Run.Updates
import TinyAutomator.Lib.Replay

/-! One client that watches a run. Workers write a status and then publish it; the listener
dispatches what was published; StreamWorkflowRunProgress registers the client, sends what
is stored, and forwards the rest; the canvas sets what it receives. -/
namespace TinyAutomator.Run.LiveCanvas

open Transition Replay

/-- An event of the stream that the canvas handles. -/
inductive StreamEvent where
  | nodeUpdate (update : NodeID × NodeStatus)
  | completed
  deriving DecidableEq

/-- Where StreamWorkflowRunProgress stands; `ended` after the completion event. -/
inductive Phase where
  | connecting
  | registered
  | streaming
  | ended
  | gone
  deriving DecidableEq

/-- `read` counts the published updates that dispatchUpdate has seen. -/
structure Live where
  run : State
  read : Nat
  phase : Phase
  channel : List (NodeID × NodeStatus)
  stream : List StreamEvent
  canvas : NodeID → NodeStatus

inductive Label where
  | run (label : Run.Label)
  | register
  | snapshot (order : List NodeID)
  | snapshotFails
  | dispatch
  | forward
  | receive
  | disconnect
  deriving DecidableEq

def channelCapacity : Nat := 10

def Live.status (s : Live) (n : NodeID) : NodeStatus := (s.run.infra.nodeRuns n).status

def setNodeStatus (canvas : NodeID → NodeStatus) (n : NodeID) (status : NodeStatus) : NodeID → NodeStatus :=
  Function.update canvas n status

/-- The listeners of the route for node_update and workflow_run_completed. -/
def handleEvent (g : WorkflowGraph) (canvas : NodeID → NodeStatus) : StreamEvent → NodeID → NodeStatus
  | .nodeUpdate (n,status) => setNodeStatus canvas n status
  | .completed => (ids g).foldl (fun canvas n => setNodeStatus canvas n .success) canvas

/-- A dispatched update goes to the channel of a registered client, if there is room. -/
def dispatchUpdate (s : Live) (update : NodeID × NodeStatus) : List (NodeID × NodeStatus) :=
  if (s.phase = .registered ∨ s.phase = .streaming) ∧ s.channel.length < channelCapacity then
    s.channel ++ [update]
  else s.channel

/-- The node runs come out of a map: in any order. -/
def step (g : WorkflowGraph) : Label → Live → Option Live
  | .run label, s =>
    match Run.step g label s.run with
    | some run => some {s with run}
    | none => none
  | .register, s => if s.phase = .connecting then some {s with phase := .registered} else none
  | .snapshot order, s =>
    if s.phase = .registered ∧ order.Perm (ids g) then
      if s.run.infra.run.status ≠ .running then
        some {s with phase := .ended, channel := [], stream := s.stream ++ [.completed]}
      else
        some {s with
          phase := .streaming
          stream := s.stream ++ order.map fun n => .nodeUpdate (n,s.status n)}
    else none
  | .snapshotFails, s =>
    if s.phase = .registered then some {s with phase := .gone, channel := [], stream := []} else none
  | .dispatch, s =>
    match s.run.infra.updates[s.read]? with
    | some update => some {s with read := s.read + 1, channel := dispatchUpdate s update}
    | none => none
  | .forward, s =>
    if s.phase = .streaming then
      match s.channel with
      | update :: channel => some {s with channel, stream := s.stream ++ [.nodeUpdate update]}
      | [] => none
    else none
  | .receive, s =>
    match s.stream with
    | event :: stream => some {s with stream, canvas := handleEvent g s.canvas event}
    | [] => none
  | .disconnect, s => some {s with phase := .gone, channel := [], stream := []}

/-- The canvas shows 'pending' for a node without a status. -/
def live (g : WorkflowGraph) : System Live Label where
  init := ⟨(system g).init,0,.connecting,[],[],fun _ => .pending⟩
  step := step g

/-- What the client will get: its channel, then what has not been dispatched. -/
def Live.coming (s : Live) : List (NodeID × NodeStatus) := s.channel ++ s.run.infra.updates.drop s.read

/-- The run has ended, and no status that was written is still to be published. -/
def Live.Over (s : Live) : Prop :=
  s.run.infra.run.status ≠ .running ∧ ∀ h ∈ s.run.handlers, h.pc.publishes = none

instance : DecidablePred Live.Over := fun s => inferInstanceAs
  (Decidable (s.run.infra.run.status ≠ .running ∧ ∀ h ∈ s.run.handlers, h.pc.publishes = none))

/-- The client has its snapshot or its completion event, and everything has arrived. -/
def Live.Delivered (s : Live) : Prop :=
  (s.phase = .streaming ∨ s.phase = .ended) ∧ s.coming = [] ∧ s.stream = []

instance : DecidablePred Live.Delivered := fun s => inferInstanceAs
  (Decidable ((s.phase = .streaming ∨ s.phase = .ended) ∧ s.coming = [] ∧ s.stream = []))

/-- The publish takes effect, and what it publishes is still stored; when the client has been
told that the run is completed, 'success' is. -/
def Presents (s : Live) (h : Handler) (o : Outcome) : Prop :=
  if s.phase = .ended then s.status h.msg.nodeID = .success
  else o.applied = true ∧ h.pc.publishes = some (s.status h.msg.nodeID)

instance (s : Live) (h : Handler) : DecidablePred (Presents s h) := fun o => inferInstanceAs
  (Decidable (if s.phase = .ended then s.status h.msg.nodeID = .success
    else o.applied = true ∧ h.pc.publishes = some (s.status h.msg.nodeID)))

/-- Updates are published as they are stored, an update that finds the channel full is
followed by another one of its node, and a run that has ended before the snapshot has
succeeded node by node. -/
def KeepsUp (g : WorkflowGraph) (s : Live) : Label → Prop
  | .run (.handle i o now) => Reported s.run (.handle i o now) ∧
      ∀ h ∈ s.run.handlers[i]?, h.pc.publishes ≠ none →
        s.run.OthersUpdating i h.msg.nodeID ∨ Presents s h o
  | .run label => Reported s.run label
  | .dispatch => ∀ u ∈ s.run.infra.updates[s.read]?, s.channel.length < channelCapacity ∨
      s.run.Updating u.1 ∨ ∃ v ∈ s.run.infra.updates.drop (s.read + 1), v.1 = u.1
  | .snapshot _ => s.run.infra.run.status = .running ∨
      ∀ n ∈ ids g, s.run.Updating n ∨ s.status n = .success
  | _ => True

def keepsUp (g : WorkflowGraph) : Guard Live Label := KeepsUp g

instance (g : WorkflowGraph) : ∀ s label, Decidable (keepsUp g s label)
  | s, .run (.handle i o now) => inferInstanceAs (Decidable (Reported s.run (.handle i o now) ∧
      ∀ h ∈ s.run.handlers[i]?, h.pc.publishes ≠ none →
        s.run.OthersUpdating i h.msg.nodeID ∨ Presents s h o))
  | s, .run (.crash i) => inferInstanceAs (Decidable (Reported s.run (.crash i)))
  | s, .dispatch => inferInstanceAs (Decidable (∀ u ∈ s.run.infra.updates[s.read]?,
      s.channel.length < channelCapacity ∨ s.run.Updating u.1 ∨
        ∃ v ∈ s.run.infra.updates.drop (s.read + 1), v.1 = u.1))
  | s, .snapshot _ => inferInstanceAs (Decidable (s.run.infra.run.status = .running ∨
      ∀ n ∈ ids g, s.run.Updating n ∨ s.status n = .success))
  | _, .run (.orchestrate _) | _, .run (.finish ..) | _, .run (.deliver _) | _, .run (.mature _)
  | _, .run .expireSet | _, .run .expireLock | _, .run (.redeliver _) | _, .run .crashOrchestrator
  | _, .register | _, .snapshotFails | _, .forward | _, .receive | _, .disconnect =>
    inferInstanceAs (Decidable True)

/-- Nothing fails, and the client stays. -/
def faultless : Guard Live Label
  | _, .run label => label.FaultFree
  | _, .snapshotFails | _, .disconnect => False
  | _, .register | _, .snapshot _ | _, .dispatch | _, .forward | _, .receive => True

instance : ∀ s label, Decidable (faultless s label)
  | _, .run label => inferInstanceAs (Decidable label.FaultFree)
  | _, .snapshotFails | _, .disconnect => inferInstanceAs (Decidable False)
  | _, .register | _, .snapshot _ | _, .dispatch | _, .forward | _, .receive =>
    inferInstanceAs (Decidable True)

section Agreement

variable {g : WorkflowGraph} {s t : Live} {label : Label} {l : Run.Label} {n : NodeID} {run : State}

/-- What the canvas will show, by the phase of the client. Before the snapshot, a snapshot
taken now, and what comes after it. -/
def Agrees (g : WorkflowGraph) (s : Live) : Phase → Prop
  | .connecting => s.channel = [] ∧ s.stream = [] ∧
      ∀ n, s.run.Updating n ∨ shown s.status s.coming n = s.status n
  | .registered => s.stream = [] ∧ ∀ n, s.run.Updating n ∨ shown s.status s.coming n = s.status n
  | .streaming => ∃ sent, s.stream = sent.map .nodeUpdate ∧
      ∀ n ∈ ids g, s.run.Updating n ∨ shown s.canvas (sent ++ s.coming) n = s.status n
  | .ended => (∀ n ∈ ids g, s.run.Updating n ∨ s.status n = .success) ∧
      (s.stream = [.completed] ∨ s.stream = [] ∧ ∀ n ∈ ids g, s.canvas n = .success)
  | .gone => True

structure Followed (g : WorkflowGraph) (s : Live) : Prop where
  rooted : Rooted g s.run
  read : s.read ≤ s.run.infra.updates.length
  agrees : Agrees g s s.phase

theorem followed_init : Followed g (live g).init :=
  ⟨rooted_init,Nat.zero_le _,rfl,rfl,fun _ => .inr rfl⟩

/-- What is still to come grows by what is published. -/
theorem coming_append {update : NodeID × NodeStatus} (read : s.read ≤ s.run.infra.updates.length)
    (updates : run.infra.updates = s.run.infra.updates ++ [update]) :
    ({s with run} : Live).coming = s.coming ++ [update] := by
  rw [Live.coming,Live.coming,updates,List.drop_append_of_le_length read,List.append_assoc]

theorem keepsUp_reported (allowed : keepsUp g s (.run l)) : Reported s.run l := by
  cases l with
  | handle i o now => exact allowed.1
  | _ => exact allowed

/-- A step of the run after which nobody updates the node: the row stays, and when the
client still listens, the last update to come is that row or the same as before. -/
theorem run_settled (followed : Followed g s) (allowed : keepsUp g s (.run l))
    (step : (system g).step l s.run = some run) (still : ¬run.Updating n) :
    Untouched s.run run n ∨ run.infra.nodeRuns = s.run.infra.nodeRuns ∧
      if s.phase = .ended then s.status n = .success
      else run.infra.updates = s.run.infra.updates ++ [(n,s.status n)] := by
  rcases settled_step followed.rooted step (keepsUp_reported allowed) still with
    untouched | ⟨i,o,now,h,rfl,rfl,here,alone,rows,status,publishes,updates⟩
  · exact .inl untouched
  · have presents : Presents s h o := by
      rcases allowed.2 h here (by rw [publishes]; simp) with others | presents
      · exact absurd others alone
      · exact presents
    refine .inr ⟨rows,?_⟩
    rw [Presents] at presents
    split
    next ended => rwa [if_pos ended] at presents
    next ongoing =>
      rw [if_neg ongoing] at presents
      obtain ⟨applied,stored⟩ := presents
      rw [publishes] at stored
      rw [updates,applied,if_pos rfl,Option.some.inj stored]

/-- A view that leads to what is stored still does after a step of the run. -/
theorem shown_step {base base' : NodeID → NodeStatus} (sent : List (NodeID × NodeStatus))
    (followed : Followed g s) (allowed : keepsUp g s (.run l)) (ongoing : s.phase ≠ .ended)
    (step : (system g).step l s.run = some run)
    (same : run.infra.nodeRuns n = s.run.infra.nodeRuns n → base' n = base n)
    (old : s.run.Updating n ∨ shown base (sent ++ s.coming) n = s.status n) :
    run.Updating n ∨
    shown base' (sent ++ ({s with run} : Live).coming) n = ({s with run} : Live).status n := by
  by_cases still : run.Updating n
  · exact .inl still
  right
  rcases run_settled followed allowed step still with ⟨idle,row,updates⟩ | ⟨rows,updates⟩
  · have shows : shown base' (sent ++ s.coming) n = s.status n :=
      (shown_agree (same row)).trans (old.resolve_left idle)
    have stored : ({s with run} : Live).status n = s.status n := congrArg NodeRun.status row
    rw [stored]
    rcases updates with quiet | ⟨u,more,agrees⟩
    · rw [Live.coming,quiet]
      exact shows
    · rw [coming_append followed.read more,← List.append_assoc]
      exact shown_concat shows agrees
  · rw [if_neg ongoing] at updates
    have stored : ({s with run} : Live).status n = s.status n := congrArg NodeRun.status (congrFun rows n)
    rw [stored,coming_append followed.read updates,← List.append_assoc]
    exact shown_last

theorem followed_run (followed : Followed g s) (allowed : keepsUp g s (.run l))
    (step : (system g).step l s.run = some run) : Followed g {s with run} := by
  refine ⟨followed.rooted.step step,?_,?_⟩
  · exact followed.read.trans (step_updates step).length_le
  · have agrees := followed.agrees
    change Agrees g {s with run} s.phase
    cases phase : s.phase with
    | connecting =>
      rw [phase] at agrees
      obtain ⟨channel,stream,shows⟩ := agrees
      exact ⟨channel,stream,fun n => shown_step [] followed allowed (by simp [phase]) step
        (congrArg NodeRun.status) (shows n)⟩
    | registered =>
      rw [phase] at agrees
      obtain ⟨stream,shows⟩ := agrees
      exact ⟨stream,fun n => shown_step [] followed allowed (by simp [phase]) step
        (congrArg NodeRun.status) (shows n)⟩
    | streaming =>
      rw [phase] at agrees
      obtain ⟨sent,stream,shows⟩ := agrees
      exact ⟨sent,stream,fun n member => shown_step sent followed allowed (by simp [phase]) step
        (fun _ => rfl) (shows n member)⟩
    | ended =>
      rw [phase] at agrees
      obtain ⟨stored,canvas⟩ := agrees
      refine ⟨fun n member => ?_,canvas⟩
      by_cases still : run.Updating n
      · exact .inl still
      right
      rcases run_settled followed allowed step still with ⟨idle,row,_⟩ | ⟨rows,success⟩
      · exact (congrArg NodeRun.status row).trans ((stored n member).resolve_left idle)
      · rw [if_pos phase] at success
        exact (congrArg NodeRun.status (congrFun rows n)).trans success
    | gone => trivial

theorem followed_register (followed : Followed g s) (phase : s.phase = .connecting) :
    Followed g {s with phase := .registered} := by
  obtain ⟨rooted,read,agrees⟩ := followed
  rw [phase] at agrees
  exact ⟨rooted,read,agrees.2⟩

/-- The snapshot shows what is stored, and what comes after it leads to the same. -/
theorem followed_snapshot {order : List NodeID} (followed : Followed g s)
    (allowed : keepsUp g s (.snapshot order)) (step : (live g).step (.snapshot order) s = some t) :
    Followed g t := by
  obtain ⟨rooted,read,agrees⟩ := followed
  simp only [live,LiveCanvas.step] at step
  split at step
  next ready =>
    obtain ⟨phase,perm⟩ := ready
    rw [phase] at agrees
    obtain ⟨stream,shows⟩ := agrees
    split at step
    next ended =>
      cases step
      exact ⟨rooted,read,allowed.resolve_left ended,.inl (by simp [stream])⟩
    next =>
      cases step
      refine ⟨rooted,read,order.map (fun n => (n,s.status n)),by simp [stream],fun n member => ?_⟩
      apply (shows n).imp_right
      intro shows
      rw [shown_append]
      refine (shown_agree ?_).trans shows
      exact shown_map (perm.mem_iff.mpr member)
  next => contradiction

/-- An update that is dropped is made up for: by another one of its node, now or later. -/
theorem dropped_shown {base : NodeID → NodeStatus} {sent later : List (NodeID × NodeStatus)}
    {update : NodeID × NodeStatus} {v : NodeStatus}
    (made : s.run.Updating update.1 ∨ ∃ w ∈ later, w.1 = update.1)
    (shows : s.run.Updating n ∨ shown base (sent ++ update :: later) n = v) :
    s.run.Updating n ∨ shown base (sent ++ later) n = v := by
  by_cases updating : s.run.Updating n
  · exact .inl updating
  right
  rw [← shown_skip]
  · exact shows.resolve_left updating
  · rintro rfl
    exact made.resolve_left updating

/-- An update that is dispatched is still to come. -/
theorem agrees_dispatched {update : NodeID × NodeStatus} (agrees : Agrees g s s.phase)
    (listening : s.phase = .registered ∨ s.phase = .streaming)
    (left : s.run.infra.updates.drop s.read = update :: s.run.infra.updates.drop (s.read + 1)) :
    Agrees g {s with read := s.read + 1, channel := s.channel ++ [update]} s.phase := by
  have all : ({s with read := s.read + 1, channel := s.channel ++ [update]} : Live).coming = s.coming := by
    simp [Live.coming,left]
  rcases listening with phase | phase
  · rw [phase] at agrees ⊢
    obtain ⟨stream,shows⟩ := agrees
    rw [← all] at shows
    exact ⟨stream,shows⟩
  · rw [phase] at agrees ⊢
    obtain ⟨sent,stream,shows⟩ := agrees
    rw [← all] at shows
    exact ⟨sent,stream,shows⟩

theorem agrees_dropped {update : NodeID × NodeStatus} (agrees : Agrees g s s.phase)
    (left : s.run.infra.updates.drop s.read = update :: s.run.infra.updates.drop (s.read + 1))
    (made : s.phase = .registered ∨ s.phase = .streaming → s.run.Updating update.1 ∨
      ∃ w ∈ s.run.infra.updates.drop (s.read + 1), w.1 = update.1) :
    Agrees g {s with read := s.read + 1} s.phase := by
  cases phase : s.phase with
  | connecting =>
    rw [phase] at agrees
    obtain ⟨channel,stream,shows⟩ := agrees
    refine ⟨channel,stream,fun n => (shows n).imp_right fun shows => ?_⟩
    rw [Live.coming,channel,List.nil_append,left] at shows
    rw [Live.coming,channel]
    exact shown_tail rfl shows
  | registered =>
    rw [phase] at agrees
    obtain ⟨stream,shows⟩ := agrees
    rw [Live.coming,left] at shows
    exact ⟨stream,fun n => dropped_shown (made (.inl phase)) (shows n)⟩
  | streaming =>
    rw [phase] at agrees
    obtain ⟨sent,stream,shows⟩ := agrees
    rw [Live.coming,left] at shows
    simp only [← List.append_assoc] at shows
    refine ⟨sent,stream,fun n member => ?_⟩
    rw [Live.coming,← List.append_assoc]
    exact dropped_shown (made (.inr phase)) (shows n member)
  | ended => rw [phase] at agrees; exact agrees
  | gone => trivial

theorem followed_dispatch (followed : Followed g s) (allowed : keepsUp g s .dispatch)
    (step : (live g).step .dispatch s = some t) : Followed g t := by
  obtain ⟨rooted,read,agrees⟩ := followed
  simp only [live,LiveCanvas.step] at step
  split at step
  next update found =>
    cases step
    obtain ⟨bound,get⟩ := List.getElem?_eq_some_iff.mp found
    have left : s.run.infra.updates.drop s.read = update :: s.run.infra.updates.drop (s.read + 1) := by
      rw [List.drop_eq_getElem_cons bound,get]
    refine ⟨rooted,bound,?_⟩
    rw [dispatchUpdate]
    split
    next room => exact agrees_dispatched agrees room.1 left
    next full =>
      exact agrees_dropped agrees left fun listening =>
        (allowed update found).resolve_left fun room => full ⟨listening,room⟩
  next => contradiction

theorem followed_forward (followed : Followed g s) (step : (live g).step .forward s = some t) :
    Followed g t := by
  obtain ⟨rooted,read,agrees⟩ := followed
  simp only [live,LiveCanvas.step] at step
  split at step
  next phase =>
    split at step
    next update channel queued =>
      cases step
      rw [phase] at agrees
      obtain ⟨sent,stream,shows⟩ := agrees
      refine ⟨rooted,read,?_⟩
      dsimp only
      rw [phase]
      refine ⟨sent ++ [update],by simp [stream],fun n member => ?_⟩
      have all : sent ++ [update] ++ (channel ++ s.run.infra.updates.drop s.read) = sent ++ s.coming := by
        simp [Live.coming,queued]
      change s.run.Updating n ∨ shown s.canvas
        (sent ++ [update] ++ (channel ++ s.run.infra.updates.drop s.read)) n = s.status n
      rw [all]
      exact shows n member
    next => contradiction
  next => contradiction

theorem completed_shows {canvas : NodeID → NodeStatus} (member : n ∈ ids g) :
    handleEvent g canvas .completed n = .success := by
  have map : handleEvent g canvas .completed = shown canvas ((ids g).map fun n => (n,NodeStatus.success)) := by
    simp [handleEvent,shown,List.foldl_map,setNodeStatus]
  rw [map]
  exact shown_map member

theorem followed_receive (followed : Followed g s) (step : (live g).step .receive s = some t) :
    Followed g t := by
  obtain ⟨rooted,read,agrees⟩ := followed
  simp only [live,LiveCanvas.step] at step
  split at step
  next event stream queued =>
    cases step
    refine ⟨rooted,read,?_⟩
    dsimp only
    cases phase : s.phase with
    | connecting =>
      rw [phase] at agrees
      have none := agrees.2.1
      rw [queued] at none
      contradiction
    | registered =>
      rw [phase] at agrees
      have none := agrees.1
      rw [queued] at none
      contradiction
    | streaming =>
      rw [phase] at agrees
      obtain ⟨sent,same,shows⟩ := agrees
      rw [queued] at same
      cases sent with
      | nil => contradiction
      | cons update sent =>
        obtain ⟨rfl,rest⟩ := List.cons.inj same
        exact ⟨sent,rest,shows⟩
    | ended =>
      rw [phase] at agrees
      obtain ⟨stored,last | ⟨none,_⟩⟩ := agrees
      · rw [queued] at last
        obtain ⟨rfl,rest⟩ := List.cons.inj last
        exact ⟨stored,.inr ⟨rest,fun n member => completed_shows member⟩⟩
      · rw [queued] at none
        contradiction
    | gone => trivial
  next => contradiction

theorem followed_step (followed : Followed g s) (allowed : keepsUp g s label)
    (step : (live g).step label s = some t) : Followed g t := by
  cases label with
  | run label =>
    simp only [live,LiveCanvas.step] at step
    split at step
    next r moved => cases step; exact followed_run followed allowed moved
    next => contradiction
  | register =>
    simp only [live,LiveCanvas.step] at step
    split at step
    next phase => cases step; exact followed_register followed phase
    next => contradiction
  | snapshot order => exact followed_snapshot followed allowed step
  | snapshotFails =>
    simp only [live,LiveCanvas.step] at step
    split at step
    next => cases step; exact ⟨followed.rooted,followed.read,trivial⟩
    next => contradiction
  | dispatch => exact followed_dispatch followed allowed step
  | forward => exact followed_forward followed step
  | receive => exact followed_receive followed step
  | disconnect => cases step; exact ⟨followed.rooted,followed.read,trivial⟩

theorem reach_followed (reach : Reach (live g) (keepsUp g) s) : Followed g s :=
  reach.invariant (Followed g) followed_init fun _ _ _ _ followed allowed step =>
    followed_step followed allowed step

end Agreement

/-- Once a run that keeps up is over and everything has been delivered, the canvas shows
the stored status of every node. -/
theorem canvas_agrees (g : AcceptedGraph) {s : Live} (reach : Reach (live g.graph) (keepsUp g.graph) s)
    (ended : s.Over) (delivered : s.Delivered) : ∀ n ∈ ids g.graph, s.canvas n = s.status n := by
  intro n member
  have idle : ¬s.run.Updating n := fun ⟨h,there,_,publishes⟩ => publishes (ended.2 h there)
  have agrees := (reach_followed reach).agrees
  obtain ⟨phase | phase,coming,stream⟩ := delivered
  · rw [phase] at agrees
    obtain ⟨sent,same,shows⟩ := agrees
    rw [stream] at same
    have none : sent = [] := List.map_eq_nil_iff.mp same.symm
    rw [none,coming] at shows
    exact (shows n member).resolve_left idle
  · rw [phase] at agrees
    obtain ⟨stored,sent | ⟨_,success⟩⟩ := agrees
    · rw [stream] at sent
      contradiction
    · rw [success n member,(stored n member).resolve_left idle]

theorem chain_canvas_agrees : ∃ s : Live, s.phase = .streaming ∧ s.Over ∧ s.Delivered ∧
    ∀ n ∈ ids chain.graph, s.canvas n = s.status n := by
  obtain ⟨s,reach,phase,ended,delivered⟩ : ∃ s, Reach (live chain.graph) (keepsUp chain.graph) s ∧
      s.phase = .streaming ∧ s.Over ∧ s.Delivered :=
    follow_exists (List.flatten [[.register,.snapshot [2,3,1],.receive,.receive,.receive],
      List.replicate 5 (.run (.orchestrate .ok)), .run (.deliver ⟨2,0⟩) ::
      List.replicate 6 (.run (.handle 0 .ok 1)), .run (.finish 0 none) ::
      List.replicate 6 (.run (.handle 0 .ok 2)), .run (.deliver ⟨3,0⟩) ::
      List.replicate 6 (.run (.handle 1 .ok 3)), .run (.finish 1 none) ::
      List.replicate 6 (.run (.handle 1 .ok 4)),
      (List.replicate 5 [.dispatch,.forward,.receive]).flatten]) (by decide +kernel)
  exact ⟨s,phase,ended,delivered,canvas_agrees chain reach ended delivered⟩

/-- A client that connects after a failed run is told that it is completed, and shows every
node as a success. -/
theorem chain_failed_shown_success : ¬∀ (g : AcceptedGraph) (s : Live),
    Reach (live g.graph) faultless s → s.Over → s.Delivered → ∀ n ∈ ids g.graph, s.canvas n = s.status n := by
  intro claim
  obtain ⟨s,reach,ended,delivered,stored,shows⟩ : ∃ s, Reach (live chain.graph) faultless s ∧
      s.Over ∧ s.Delivered ∧ s.status 2 = .failed ∧ s.canvas 2 = .success :=
    follow_exists (List.flatten [List.replicate 5 (.run (.orchestrate .ok)),
      .run (.deliver ⟨2,0⟩) :: List.replicate 6 (.run (.handle 0 .ok 1)),
      .run (.finish 0 (some "timeout")) :: List.replicate 4 (.run (.handle 0 .ok 1)),
      .run (.mature ⟨2,1⟩) :: .run (.deliver ⟨2,1⟩) :: List.replicate 6 (.run (.handle 1 .ok 2)),
      .run (.finish 1 (some "timeout")) :: List.replicate 4 (.run (.handle 1 .ok 2)),
      .run (.mature ⟨2,2⟩) :: .run (.deliver ⟨2,2⟩) :: List.replicate 6 (.run (.handle 2 .ok 3)),
      .run (.finish 2 (some "timeout")) :: List.replicate 5 (.run (.handle 2 .ok 3)),
      List.replicate 7 .dispatch, [.register,.snapshot [1,2,3],.receive]]) (by decide +kernel)
  have agrees := claim chain s reach ended delivered 2 (by decide)
  rw [stored,shows] at agrees
  contradiction

end TinyAutomator.Run.LiveCanvas
