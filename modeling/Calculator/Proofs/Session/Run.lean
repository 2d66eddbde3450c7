import Calculator.Proofs.State.Run
import Calculator.Session
import Mathlib.Data.List.Chain

/-!
This module contains runs of a session, which serve one request after another. Whatever listens, the
state is the one that the dispatched keys lead to.
-/

namespace Calculator

namespace State

/--
The states that replaced another one while the keys were pressed, in order.
-/
def changes (config : Config) (state : State) (keys : List Key) : List State :=
  ((keystrokes config state keys).filter (fun stroke => stroke.after ≠ stroke.before)).map
    Keystroke.after

theorem changes_append (config : Config) (state : State) (front back : List Key) :
    changes config state (front ++ back)
      = changes config state front ++ changes config (run config state front) back := by
  unfold changes
  rw [keystrokes_append, List.filter_append, List.map_append]

theorem changes_singleton (config : Config) (state : State) (key : Key) :
    changes config state [key]
      = if state.press config key = state then [] else [state.press config key] := by
  unfold changes
  split
  · next h => simp [keystrokes, h]
  · next h => simp [keystrokes, h]

theorem changes_concat (config : Config) (state : State) (keys : List Key) (key : Key) :
    changes config state (keys ++ [key])
      = changes config state keys
        ++ if (run config state keys).press config key = run config state keys then []
          else [(run config state keys).press config key] := by
  rw [changes_append, changes_singleton]

theorem length_changes_le (config : Config) (state : State) (keys : List Key) :
    (changes config state keys).length ≤ keys.length := by
  induction keys using List.reverseRecOn with
  | nil => exact Nat.le_refl 0
  | append_singleton keys key ih =>
    rw [changes_concat]
    simp only [List.length_append, List.length_singleton]
    split
    · rw [List.length_nil]
      omega
    · rw [List.length_singleton]
      omega

theorem getLast?_changes (config : Config) (state : State) (keys : List Key) :
    (state :: changes config state keys).getLast? = some (run config state keys) := by
  induction keys using List.reverseRecOn with
  | nil => rfl
  | append_singleton keys key ih =>
    rw [changes_concat, run_concat, ← List.cons_append]
    split
    · next h => rw [List.append_nil, ih, h]
    · rw [List.getLast?_concat]

theorem isChain_changes (config : Config) (state : State) (keys : List Key) :
    (state :: changes config state keys).IsChain (· ≠ ·) := by
  induction keys using List.reverseRecOn with
  | nil => exact List.isChain_singleton state
  | append_singleton keys key ih =>
    rw [changes_concat, ← List.cons_append]
    split
    · rw [List.append_nil]
      exact ih
    · next h =>
      rw [List.isChain_append]
      refine ⟨ih, List.isChain_singleton _, ?_⟩
      -- The last of the earlier states is the current one.
      rintro last hlast _ ⟨⟩
      rw [getLast?_changes] at hlast
      cases hlast
      exact Ne.symm h

end State

inductive Request where
  | subscribe
  | dispatch (key : Key)
deriving DecidableEq

namespace Request

def key? : Request → Option Key
  | .subscribe => none
  | .dispatch key => some key

/--
The keys that are dispatched by some requests, in order.
-/
def keys (requests : List Request) : List Key := requests.filterMap key?

theorem keys_append (front back : List Request) : keys (front ++ back) = keys front ++ keys back :=
  List.filterMap_append

end Request

namespace Session

def serve (session : Session) : Request → Step
  | .subscribe => session.subscribe
  | .dispatch key => session.dispatch key

def serveAll (session : Session) (requests : List Request) : Step :=
  requests.foldl (fun step request => step.andThen (·.serve request)) { session }

theorem serveAll_concat (session : Session) (requests : List Request) (request : Request) :
    session.serveAll (requests ++ [request])
      = (session.serveAll requests).andThen (·.serve request) := by
  unfold serveAll
  rw [List.foldl_append]
  rfl

variable (session : Session)

theorem session_replace (next : State) :
    (session.replace next).session
      = { session with
          state := next
          revision := session.revision + if next = session.state then 0 else 1 } := by
  unfold replace
  split
  · next h =>
    subst h
    rfl
  · rfl

theorem deliveries_replace (next : State) :
    (session.replace next).deliveries
      = if next = session.state then [] else (List.range session.listeners).map (⟨·, next⟩) := by
  unfold replace
  split <;> rfl

theorem session_dispatch (key : Key) :
    (session.dispatch key).session
      = (session.replace (session.state.press session.config key)).session := rfl

theorem state_dispatch (key : Key) :
    (session.dispatch key).session.state = session.state.press session.config key := by
  rw [session_dispatch, session_replace]

theorem deliveries_dispatch (key : Key) :
    (session.dispatch key).deliveries
      = (session.replace (session.state.press session.config key)).deliveries := rfl

theorem config_serve (request : Request) :
    (session.serve request).session.config = session.config := by
  cases request with
  | subscribe => rfl
  | dispatch key =>
    unfold serve
    rw [session_dispatch, session_replace]

theorem config_serveAll (requests : List Request) :
    (session.serveAll requests).session.config = session.config := by
  induction requests using List.reverseRecOn with
  | nil => rfl
  | append_singleton requests request ih =>
    rw [serveAll_concat]
    exact (config_serve _ request).trans ih

theorem state_serve (request : Request) :
    (session.serve request).session.state
      = State.run session.config session.state (Request.keys [request]) := by
  cases request with
  | subscribe => rfl
  | dispatch key =>
    unfold serve
    rw [session_dispatch, session_replace]
    rfl

theorem state_serveAll (requests : List Request) :
    (session.serveAll requests).session.state
      = State.run session.config session.state (Request.keys requests) := by
  induction requests using List.reverseRecOn with
  | nil => rfl
  | append_singleton requests request ih =>
    have hserve := state_serve (session.serveAll requests).session request
    rw [config_serveAll, ih] at hserve
    rw [serveAll_concat, Request.keys_append, State.run_append]
    exact hserve

theorem revision_serve (request : Request) :
    (session.serve request).session.revision
      = session.revision
        + (State.changes session.config session.state (Request.keys [request])).length := by
  cases request with
  | subscribe => rfl
  | dispatch key =>
    have hkeys : Request.keys [.dispatch key] = [key] := rfl
    unfold serve
    rw [session_dispatch, session_replace, hkeys, State.changes_singleton, apply_ite List.length]
    rfl

theorem revision_serveAll (requests : List Request) :
    (session.serveAll requests).session.revision
      = session.revision
        + (State.changes session.config session.state (Request.keys requests)).length := by
  induction requests using List.reverseRecOn with
  | nil => rfl
  | append_singleton requests request ih =>
    have hserve := revision_serve (session.serveAll requests).session request
    rw [config_serveAll, state_serveAll, ih, Nat.add_assoc, ← List.length_append] at hserve
    rw [serveAll_concat, Request.keys_append, State.changes_append]
    exact hserve

end Session

end Calculator
