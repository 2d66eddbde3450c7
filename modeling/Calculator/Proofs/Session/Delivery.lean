import Calculator.Proofs.Session.Run
import Mathlib.Data.List.Count

/-!
This module shows that the listeners of a session follow its state: each one receives the state that
it subscribed in and then every state that replaced another one, in order and exactly once.
-/

namespace Calculator

namespace Session

namespace Step

/--
The states that a listener received, in order.
-/
def received (step : Step) (listener : Nat) : List State :=
  (step.deliveries.filter (·.listener = listener)).map Delivery.state

theorem received_andThen (first : Step) (request : Session → Step) (listener : Nat) :
    (first.andThen request).received listener
      = first.received listener ++ (request first.session).received listener := by
  unfold received andThen
  rw [List.filter_append, List.map_append]

end Step

theorem serveAll_append (session : Session) (front back : List Request) :
    session.serveAll (front ++ back) = (session.serveAll front).andThen (·.serveAll back) := by
  induction back using List.reverseRecOn with
  | nil => simp [serveAll, Step.andThen]
  | append_singleton back request ih =>
    rw [← List.append_assoc, serveAll_concat, ih]
    simp only [Step.andThen, serveAll_concat, List.append_assoc]

variable (session : Session)

theorem listeners_serve (request : Request) :
    (session.serve request).session.listeners
      = session.listeners + [request].count .subscribe := by
  cases request with
  | subscribe => rfl
  | dispatch key =>
    unfold serve
    rw [session_dispatch, session_replace]
    rfl

theorem listeners_serveAll (requests : List Request) :
    (session.serveAll requests).session.listeners
      = session.listeners + requests.count .subscribe := by
  induction requests using List.reverseRecOn with
  | nil => rfl
  | append_singleton requests request ih =>
    have hserve := listeners_serve (session.serveAll requests).session request
    rw [ih, Nat.add_assoc, ← List.count_append] at hserve
    rw [serveAll_concat]
    exact hserve

theorem listeners_serveAll_new (config : Config) (requests : List Request) :
    ((new config).session.serveAll requests).session.listeners = requests.count .subscribe := by
  rw [listeners_serveAll]
  exact Nat.zero_add _

section Listener

variable (listener : Nat)

/--
Every listener is sent a new state once.
-/
theorem map_state_filter_range (state : State) (listeners : Nat) :
    (((List.range listeners).map (Delivery.mk · state)).filter (·.listener = listener)).map
        Delivery.state
      = if listener < listeners then [state] else [] := by
  induction listeners with
  | zero => rfl
  | succ last ih =>
    rw [List.range_succ, List.map_append, List.filter_append, List.map_append, ih]
    rcases Nat.lt_trichotomy listener last with hlt | heq | hgt
    · have hne : ¬last = listener := by omega
      simp [hlt, hne, Nat.lt_succ_of_lt hlt]
    · simp [heq]
    · have hge : ¬listener < last := by omega
      have hne : ¬last = listener := by omega
      have hgt : ¬listener < last + 1 := by omega
      simp [hge, hne, hgt]

theorem received_subscribe :
    session.subscribe.received listener
      = if listener = session.listeners then [session.state] else [] := by
  unfold subscribe Step.received
  by_cases h : session.listeners = listener
  · simp [h]
  · simp [h, Ne.symm h]

theorem received_dispatch (key : Key) :
    (session.dispatch key).received listener
      = if listener < session.listeners then State.changes session.config session.state [key]
        else [] := by
  unfold Step.received
  rw [deliveries_dispatch, deliveries_replace, State.changes_singleton]
  split
  · simp
  · exact map_state_filter_range listener _ session.listeners

/--
Nothing is sent to listeners that have not subscribed.
-/
theorem received_serveAll_of_listeners_le (requests : List Request)
    (h : (session.serveAll requests).session.listeners ≤ listener) :
    (session.serveAll requests).received listener = [] := by
  induction requests using List.reverseRecOn with
  | nil => rfl
  | append_singleton requests request ih =>
    rw [listeners_serveAll, List.count_append] at h
    have hbefore : (session.serveAll requests).session.listeners ≤ listener := by
      rw [listeners_serveAll]
      omega
    rw [serveAll_concat, Step.received_andThen, ih hbefore, List.nil_append]
    cases request with
    | subscribe =>
      have hne : listener ≠ (session.serveAll requests).session.listeners := by
        rw [listeners_serveAll]
        simp at h
        omega
      exact (received_subscribe _ listener).trans (if_neg hne)
    | dispatch key =>
      exact (received_dispatch _ listener key).trans (if_neg (Nat.not_lt.mpr hbefore))

/--
A listener that has subscribed receives every state that replaces another one.
-/
theorem received_serveAll_of_lt_listeners (requests : List Request)
    (h : listener < session.listeners) :
    (session.serveAll requests).received listener
      = State.changes session.config session.state (Request.keys requests) := by
  induction requests using List.reverseRecOn with
  | nil => rfl
  | append_singleton requests request ih =>
    have hbefore : listener < (session.serveAll requests).session.listeners := by
      rw [listeners_serveAll]
      omega
    rw [serveAll_concat, Step.received_andThen, ih, Request.keys_append, State.changes_append,
      List.append_cancel_left_eq]
    cases request with
    | subscribe => exact (received_subscribe _ listener).trans (if_neg (Nat.ne_of_lt hbefore))
    | dispatch key =>
      have hreceived := received_dispatch (session.serveAll requests).session listener key
      rw [if_pos hbefore, config_serveAll, state_serveAll] at hreceived
      exact hreceived

end Listener

theorem received_serveAll_subscribe (front back : List Request) :
    (session.serveAll (front ++ .subscribe :: back)).received
        (session.serveAll front).session.listeners
      = State.run session.config session.state (Request.keys front)
        :: State.changes session.config
            (State.run session.config session.state (Request.keys front)) (Request.keys back) := by
  -- The listener gets the next number, so it is unknown before and known afterwards.
  generalize hlistener : (session.serveAll front).session.listeners = listener
  have hfront := received_serveAll_of_listeners_le session listener front (Nat.le_of_eq hlistener)
  have hsubscribe := received_subscribe (session.serveAll front).session listener
  rw [if_pos hlistener.symm, state_serveAll] at hsubscribe
  have hback := received_serveAll_of_lt_listeners
    (session.serveAll front).session.subscribe.session listener back
    (Nat.lt_succ_of_le (Nat.le_of_eq hlistener.symm))
  have hsplit : front ++ .subscribe :: back = (front ++ [.subscribe]) ++ back :=
    List.append_cons front .subscribe back
  rw [hsplit, serveAll_append, Step.received_andThen, serveAll_concat, Step.received_andThen,
    hfront, List.nil_append]
  refine (congrArg₂ (· ++ ·) hsubscribe hback).trans ?_
  simp only [subscribe, config_serveAll, state_serveAll, List.singleton_append]

theorem deliveries_serveAll_subscribe (requests : List Request) :
    (session.serveAll (requests ++ [.subscribe])).deliveries
      = (session.serveAll requests).deliveries
        ++ [⟨(session.serveAll requests).session.listeners,
          (session.serveAll requests).session.state⟩] := by
  rw [serveAll_concat]
  rfl

theorem deliveries_serveAll_dispatch (requests : List Request) (key : Key) :
    (session.serveAll (requests ++ [.dispatch key])).deliveries
      = (session.serveAll requests).deliveries
        ++ if (session.serveAll requests).session.state.press session.config key
              = (session.serveAll requests).session.state then []
          else (List.range (session.serveAll requests).session.listeners).map
            (⟨·, (session.serveAll requests).session.state.press session.config key⟩) := by
  rw [serveAll_concat]
  simp only [Step.andThen, serve, deliveries_dispatch, deliveries_replace, config_serveAll]

/--
A new session that serves any requests is in the state that the dispatched keys lead to, and has
counted the changes on the way. The listener that subscribed between two parts of the requests
received the state of that moment and then every change, so the last that it received is the current
state. A further subscription sends the current state to the new listener alone, and a further key
sends the new state to all listeners in the order of their subscription, or nothing if it is the same
as before.
-/
theorem serveAll_delivers (config : Config) (requests : List Request) :
    let served := (new config).session.serveAll requests
    served.session.state = State.run config {} (Request.keys requests)
    ∧ served.session.revision = (State.changes config {} (Request.keys requests)).length
    ∧ served.session.revision ≤ (Request.keys requests).length
    ∧ (∀ front back, requests = front ++ .subscribe :: back →
        let start := State.run config {} (Request.keys front)
        let received := served.received (front.count .subscribe)
        received = start :: State.changes config start (Request.keys back)
        ∧ received.IsChain (· ≠ ·)
        ∧ received.getLast? = some served.session.state)
    ∧ ((new config).session.serveAll (requests ++ [.subscribe])).deliveries
        = served.deliveries ++ [⟨requests.count .subscribe, served.session.state⟩]
    ∧ ∀ key,
        let next := served.session.state.press config key
        ((new config).session.serveAll (requests ++ [.dispatch key])).deliveries
          = served.deliveries
            ++ if next = served.session.state then []
              else (List.range (requests.count .subscribe)).map (⟨·, next⟩) := by
  intro served
  have hstate : served.session.state = State.run config {} (Request.keys requests) :=
    state_serveAll (new config).session requests
  have hrevision :
      served.session.revision = (State.changes config {} (Request.keys requests)).length := by
    have h := revision_serveAll (new config).session requests
    rw [show (new config).session.revision = 0 from rfl, Nat.zero_add] at h
    exact h
  refine ⟨hstate, hrevision, ?_, ?_, ?_, ?_⟩
  · rw [hrevision]
    exact State.length_changes_le config {} (Request.keys requests)
  · intro front back hsplit start received
    have hreceived : received = start :: State.changes config start (Request.keys back) := by
      have h := received_serveAll_subscribe (new config).session front back
      rw [listeners_serveAll_new, ← hsplit] at h
      exact h
    have hkeys : Request.keys requests = Request.keys front ++ Request.keys back := by
      rw [hsplit, Request.keys_append]
      rfl
    refine ⟨hreceived, ?_, ?_⟩
    · rw [hreceived]
      exact State.isChain_changes config start (Request.keys back)
    · rw [hreceived, State.getLast?_changes, hstate, hkeys, State.run_append]
  · rw [deliveries_serveAll_subscribe, listeners_serveAll_new]
  · intro key next
    rw [deliveries_serveAll_dispatch, listeners_serveAll_new]
    rfl

end Session

end Calculator
