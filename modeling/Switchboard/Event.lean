import Switchboard.Message

/-!
# Events and their keys

An event belongs to a **key**, the name of a type of events. A key has
parents, and those have theirs, up to the key `any`, which is an ancestor
of every key without being listed. `isSubOf` decides descent, `lineage`
lists a key with its ancestors, the nearest first and `any` last.

Keys are compared by their names alone (`sameName`). Nothing forces one
name to have one list of parents everywhere, so two keys of one name can
have different ancestors.

An event also has a kind, the concrete type a handler may ask for, and it
may carry a message, the identifier of the bot that received it, and data
of its own.
-/

namespace Switchboard

/-- The key of a type of events. -/
inductive EventKey where
  | mk (name : String) (parents : List EventKey)
deriving Inhabited

namespace EventKey

/-- The name of a key. -/
def name : EventKey → String
  | mk name _ => name

/-- The direct parents of a key. -/
def parents : EventKey → List EventKey
  | mk _ parents => parents

/-- The key above all others. -/
def any : EventKey := mk "any" []

/-- Whether two keys have the same name. -/
def sameName (a b : EventKey) : Bool := a.name == b.name

mutual

/-- **Whether a key is the other one or descends from it.** -/
def isSubOf : EventKey → EventKey → Bool
  | mk name parents, other => other.name == any.name || name == other.name || anySubOf parents other

/-- Whether one of several keys is the other one or descends from it. -/
def anySubOf : List EventKey → EventKey → Bool
  | [], _ => false
  | k :: rest, other => isSubOf k other || anySubOf rest other

end

mutual

/-- The number of keys in the tree above a key, itself included. -/
def weight : EventKey → Nat
  | mk _ parents => 1 + weights parents

/-- The sum of several weights. -/
def weights : List EventKey → Nat
  | [] => 0
  | k :: rest => weight k + weights rest

end

/-- Whether a list has a key of this name. -/
def hasName (keys : List EventKey) (k : EventKey) : Bool := keys.any (·.sameName k)

/-- Those of `parents` whose name is not met before, each name once. -/
def fresh (known : List EventKey) : List EventKey → List EventKey
  | [] => []
  | k :: rest => if hasName known k then fresh known rest else k :: fresh (known ++ [k]) rest

theorem weights_append (as bs : List EventKey) : weights (as ++ bs) = weights as + weights bs := by
  induction as with
  | nil => simp [weights]
  | cons a as ih => simp [weights, ih, Nat.add_assoc]

/-- Leaving keys out does not add weight. -/
theorem weights_fresh_le (known ks : List EventKey) : weights (fresh known ks) ≤ weights ks := by
  induction ks generalizing known with
  | nil => simp [fresh]
  | cons k ks ih =>
    simp only [fresh]
    split
    · exact Nat.le_trans (ih known) (by simp [weights])
    · simpa [weights] using ih _

/-- Lists keys and their ancestors breadth first: `seen` is listed
already, `todo` waits for its parents to be looked at. -/
def climb (seen todo : List EventKey) : List EventKey :=
  match todo with
  | [] => seen
  | k :: todo => climb (seen ++ [k]) (todo ++ fresh (seen ++ k :: todo) k.parents)
termination_by weights todo
decreasing_by
  have h := weights_fresh_le (seen ++ k :: todo) k.parents
  have hk : weight k = 1 + weights k.parents := by cases k; simp [weight, parents]
  simp only [weights, weights_append, hk]
  omega

/-- **A key with its ancestors**, the nearest first, each name once, and
`any` last. -/
def lineage (k : EventKey) : List EventKey :=
  (climb [] [k]).filter (fun a => !a.sameName any) ++ [any]

/-- The text of a key for diagnosis. -/
def describe (k : EventKey) : String := "EventKey(" ++ k.name ++ ")"

/-- Every key descends from `any`. -/
theorem isSubOf_any (k : EventKey) : k.isSubOf any = true := by
  cases k; simp [isSubOf]

/-- A key descends from itself, and from every key of its name. -/
theorem isSubOf_of_sameName {a b : EventKey} (h : a.sameName b = true) :
    a.isSubOf b = true := by
  cases a; simp_all [isSubOf, sameName, name]

end EventKey

/-- An event. -/
structure Event where
  key : EventKey
  /-- The concrete type of the event. -/
  kind : String
  message : Option Message
  /-- The bot that received the event. -/
  bot : Option Id
  data : Json
deriving Inhabited

namespace Event

/-- What the message of an event says, if it has one. -/
def plainText (e : Event) : Option String := e.message.map (·.plainText)

/-- The text of an event for diagnosis. -/
def describe (e : Event) : String := "BoxedEvent \x7b key: " ++ e.key.describe ++ ", .. \x7d"

end Event

end Switchboard
