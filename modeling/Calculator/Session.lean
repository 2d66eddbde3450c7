import Calculator.Log

/-!
This module contains sessions: a session owns the current state of a calculator and delivers every
new state to its listeners. Listeners are numbered from zero in the order of their subscription.
-/

namespace Calculator

structure Session where
  config : Config
  state : State := {}
  /--
  The number of states that replaced another one.
  -/
  revision : Nat := 0
  listeners : Nat := 0
deriving DecidableEq

namespace Session

structure Delivery where
  listener : Nat
  state : State
deriving DecidableEq

/--
A session after a request, with all that it sent out meanwhile, in order.
-/
structure Step where
  session : Session
  deliveries : List Delivery := []
  log : List Log.Event := []

def new (config : Config) : Step :=
  { session := { config }, log := [.opened config] }

/--
Add a listener, which receives the current state at once.
-/
def subscribe (session : Session) : Step :=
  { session := { session with listeners := session.listeners + 1 }
    deliveries := [⟨session.listeners, session.state⟩] }

def publish (session : Session) : List Delivery :=
  (List.range session.listeners).map (⟨·, session.state⟩)

/--
Replace the state by a new one. A state that is the same as before is not delivered.
-/
def replace (session : Session) (next : State) : Step :=
  if next = session.state then
    { session, log := [.unchanged session.revision] }
  else
    let session := { session with state := next, revision := session.revision + 1 }
    { session
      deliveries := session.publish
      log := [.changed session.revision next.display] }

def dispatch (session : Session) (key : Key) : Step :=
  let step := session.replace (session.state.press session.config key)
  let calculation := (Log.Event.ofKey? session.config session.state key).toList
  { step with log := .entered key :: calculation ++ step.log }

def Step.andThen (first : Step) (request : Session → Step) : Step :=
  let second := request first.session
  { session := second.session
    deliveries := first.deliveries ++ second.deliveries
    log := first.log ++ second.log }

def dispatchAll (session : Session) (keys : List Key) : Step :=
  keys.foldl (fun step key => step.andThen (·.dispatch key)) { session }

def type (session : Session) (text : String) : Step :=
  session.dispatchAll (text.toList.map Key.ofChar)

end Session

end Calculator
