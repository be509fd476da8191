import Switchboard.Script.Memory

/-!
# What conditions, terms and uses of attributes mean

`Condition.eval` says whether a condition holds where a script runs. The
place (`Place`) may have no listener, as with the matcher of a session,
and no dispatch, as with a handler that does not ask for its context; what
is said about a listener that is not there does not hold.
-/

namespace Switchboard.Script

/-- Where a script runs. -/
structure Place where
  context : Option EventContext
  listener : Option ListenerContext

namespace Place

/-- The place of the invocation of a listener. -/
def ofListener (c : ListenerContext) : Place := ⟨some c.context, some c⟩

/-- The place of a dispatch. -/
def ofDispatch (c : EventContext) : Place := ⟨some c, none⟩

/-- The place of a script without a context. -/
def nowhere : Place := ⟨none, none⟩

/-- The event that is being dispatched. -/
def event? (p : Place) : Option Event := p.context.map (·.event)

/-- The attributes of the dispatch. -/
def attributes (p : Place) : Asking Attributes :=
  match p.context with
  | some c => .request (.attributes (.dispatch c))
  | none => .done .empty

/-- Replaces the attributes of the dispatch. -/
def setAttributes (p : Place) (a : Attributes) : Asking Unit :=
  match p.context with
  | some c => .request (.setAttributes (.dispatch c) a)
  | none => .done ()

/-- The outcomes the dispatch has recorded. -/
def outcomes (p : Place) : Asking (List Outcome) :=
  match p.context with
  | some c => .request (.outcomes c)
  | none => .done []

/-- Whether a listener has ended the dispatch for later ones. -/
def isTruncated (p : Place) : Asking Bool :=
  match p.context with
  | some c => .request (.isTruncated c)
  | none => .done false

end Place

namespace Condition

mutual

/-- **Whether a condition holds.** -/
def eval (p : Place) : Condition → Asking Bool
  | always => .done true
  | never => .done false
  | textIs s => .done (p.event?.any fun e => e.plainText == some s)
  | hasMessage => .done (p.event?.any (·.message.isSome))
  | hasBot => .done (p.event?.any (·.bot.isSome))
  | botIs id => .done (p.event?.any fun e => e.bot == some id)
  | keyIs key => .done (p.event?.any (·.key.sameName key))
  | keyDescendsFrom key => .done (p.event?.any (·.key.isSubOf key))
  | kindIs kind => .done (p.event?.any (·.kind == kind))
  | dispatchHas kind => p.attributes.bind fun a => .done (a.contains kind)
  | sharedHas kind =>
    (Program.request (.attributes .shared)).bind fun (a : Attributes) => .done (a.contains kind)
  | outcomesAtLeast n => p.outcomes.bind fun os => .done (n ≤ os.length)
  | listenerIs id => .done (p.listener.any (·.listener == id))
  | listenerKeyIs key => .done (p.listener.any (·.key.sameName key))
  | priorityBelow n => .done (p.listener.any (·.priority.value < n))
  | not c => (eval p c).bind fun b => .done (!b)
  | all cs => evalAll p cs
  | noted name c =>
    (eval p c).bind fun b =>
      (note (.arr [.str "filter", name, .bool b])).bind fun _ => .done b
  | panics payload => .panic payload

/-- Whether several conditions hold, looked at up to the first that does
not. -/
def evalAll (p : Place) : List Condition → Asking Bool
  | [] => .done true
  | c :: cs =>
    (eval p c).bind fun
      | true => evalAll p cs
      | false => .done false

end

end Condition

namespace ResultTerm

/-- The result a term stands for. -/
def eval : ResultTerm → Asking EventResult
  | exactly r => .done r
  | truncated t => t.eval.bind fun r => .done r.asTruncated
  | ready t =>
    t.eval.bind fun r => (Program.request (.readyHandle r)).bind fun h => .done (.async h)

end ResultTerm

namespace ReturnTerm

/-- What a term says is returned. -/
def eval : ReturnTerm → Asking Returned
  | exactly r => .done r
  | present t => t.eval.bind fun r => .done (.present r)
  | ok t => t.eval.bind fun r => .done (.ok r)
  | result t => t.eval.bind fun r => .done (.result r)

end ReturnTerm

namespace OutcomeTerm

/-- The outcome a term stands for. -/
def eval (t : OutcomeTerm) : Asking Outcome := t.result.eval.bind fun r => .done ⟨t.listener, r⟩

end OutcomeTerm

namespace DispatchTerm

/-- The outcomes several terms stand for. -/
def evalOutcomes : List OutcomeTerm → Asking (List Outcome)
  | [] => .done []
  | t :: rest => t.eval.bind fun o => (evalOutcomes rest).bind fun os => .done (o :: os)

/-- The result a term stands for. -/
def eval (t : DispatchTerm) : Asking DispatchResult :=
  (evalOutcomes t.outcomes).bind fun os => .done ⟨os, t.shortCircuited⟩

end DispatchTerm

namespace AttributeUse

/-- **The answer to a use of an attribute map**, and the map after it. -/
def apply (a : Attributes) : AttributeUse → Json × Attributes
  | set kind v => (.null, a.set kind v)
  | get kind => (.ofOption (a.get? kind), a)
  | take kind => (.ofOption (a.get? kind), a.erase kind)
  | has kind => (.bool (a.contains kind), a)
  | ensure kind v => a.ensure kind v
  | size => (.ofNat a.size, a)
  | isEmpty => (.bool (a.size == 0), a)
  | clear => (.null, .empty)

/-- Whether a use has no answer that is worth a note. -/
def isSilent : AttributeUse → Bool
  | set _ _ => true
  | _ => false

end AttributeUse

end Switchboard.Script
