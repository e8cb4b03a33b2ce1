import Mathlib.Data.Rat.Defs

/-! The records that the API, the services and the database exchange. Row ids are
SERIAL integers; a JSON config is kept key by key. -/
namespace TinyAutomator

abbrev NodeID := Nat
abbrev WorkflowID := Nat
abbrev UserID := String

/-- A node id as the API sends it, split by how the service reads the string: the
decimal form of a row id, text that uuid.Parse accepts, or anything else. -/
inductive ID where
  | row (id : NodeID)
  | uuid (text : String)
  | other (text : String)
  deriving DecidableEq, Repr

/-- For lists of edges by their ends. -/
instance : LawfulBEq (ID × ID) := inferInstance

def ID.text : ID → String
  | .row id => toString id
  | .uuid text | .other text => text

/-- The empty string is no row id and no UUID. -/
def ID.empty : ID := .other ""

/-- workflow_node accepts the first two only (its CHECK constraint); a request may
carry any other text. -/
inductive Category where
  | trigger
  | action
  | other (text : String)
  deriving DecidableEq, Repr

/-- A value of a `map[string]any`: what encoding/json decodes, and the int32 that the
service itself puts there. A list of strings may hold nulls. Values that no modelled
code looks into keep their text. -/
inductive Json where
  | null
  | bool (value : Bool)
  | num (value : Rat)
  | str (value : String)
  | strs (values : List (Option String))
  | other (canonical : String)
  | int32 (value : Nat)
  deriving DecidableEq

/-- A node config: the keys that the services read or write, and every other key
with its value in key order. Equality is reflect.DeepEqual of the two maps. -/
structure Config where
  scheduleType : Option Json
  scheduledDate : Option Json
  calendarID : Option Json
  keywords : Option Json
  timeCondition : Option Json
  eventStatus : Option Json
  userID : Option Json
  workflowID : Option Json
  rest : List (String × Json)
  deriving DecidableEq

def Config.blank : Config := ⟨none,none,none,none,none,none,none,none,[]⟩

/-- What JSONB storage gives back: the int32 comes back as a number. -/
def Json.stored : Json → Json
  | .int32 value => .num value
  | value => value

def Config.stored (c : Config) : Config where
  scheduleType := c.scheduleType.map Json.stored
  scheduledDate := c.scheduledDate.map Json.stored
  calendarID := c.calendarID.map Json.stored
  keywords := c.keywords.map Json.stored
  timeCondition := c.timeCondition.map Json.stored
  eventStatus := c.eventStatus.map Json.stored
  userID := c.userID.map Json.stored
  workflowID := c.workflowID.map Json.stored
  rest := c.rest.map fun entry => (entry.1,entry.2.stored)

structure WorkflowNode where
  id : NodeID
  category : Category
  nodeType : String
  config : Config
  deriving DecidableEq

structure WorkflowEdge where
  sourceNodeID : NodeID
  targetNodeID : NodeID
  deriving DecidableEq

structure WorkflowGraph where
  nodes : List WorkflowNode
  edges : List WorkflowEdge
  deriving DecidableEq

structure ValidateNode where
  id : ID
  nodeType : String
  category : Category

structure ValidateEdge where
  sourceNodeID : ID
  targetNodeID : ID

end TinyAutomator
