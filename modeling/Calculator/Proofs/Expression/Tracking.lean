import Calculator.Proofs.Expression.Counter
import Calculator.Proofs.Expression.Refusal

/-!
This module contains what it means that a computation with a counter agrees with readers that are
given their levels, and how computations that do are put together.
-/

namespace Calculator

theorem Cursor.remaining_eatKeyword?_lt {keyword : String} {start next : Cursor}
    (hkeyword : keyword.toList ≠ []) (h : start.eatKeyword? keyword = some next) :
    next.remaining < start.remaining := by
  obtain ⟨hrest, -⟩ := eatKeyword?_eq_some_iff.mp h
  have := List.length_pos_iff.mpr hkeyword
  simp only [remaining, hrest, List.length_append]
  omega

theorem Reader.extend_of_eatMap? {op? : Char → Option BinaryOp} {operand : Reader} {left : Reading}
    {op : BinaryOp} {next : Cursor} (hop : left.next.eatMap? op? = some (op, next)) :
    extend op? operand left
      = match operand.read next with
        | .error cause => .error cause
        | .ok right => extend op? operand ⟨.binary op left.expr right.expr, right.next⟩ := by
  cases hread : operand.read next with
  | error cause => exact extend_of_read_eq_error hop hread
  | ok right => exact extend_of_eatMap?_eq_some hop hread

theorem Reader.read_closing_map_group (reader : Reader) (start : Cursor) :
    (reader.closing.map .group).read start = (reader.read start).map Counted.close := by
  cases h : reader.read start <;> simp [Reader.map, closing, h, Except.map, Counted.close]

namespace Counted

variable {limit? : Option Nat} {bound : Nat} {counter after : Counter}
  {outcome : Except SyntaxError Reading} {read : Nat → Nat → Except SyntaxError Reading}
  {m : Counted (Except SyntaxError Reading)}

theorem remaining_close_le (body : Reading) :
    (close body).next.remaining ≤ body.next.remaining := by
  unfold close
  cases h : body.next.eatKeyword? ")" with
  | none => exact Nat.le_refl _
  | some next => exact Cursor.remaining_eatKeyword?_le h

/--
One run that started at `counter`, compared to readers with any limit that allows for its start. The
readers have as many levels left as the limit exceeds the depth.
-/
structure Tracked (limit? : Option Nat) (bound : Nat)
    (read : (limit levels : Nat) → Except SyntaxError Reading) (counter : Counter)
    (outcome : Except SyntaxError Reading) (after : Counter) : Prop where
  peak_le : counter.peak ≤ after.peak
  restored : ∀ {result}, outcome = .ok result → after.depth = counter.depth
  progress : ∀ {result}, outcome = .ok result → result.next.remaining < bound
  read_eq : ∀ {limit levels}, (∀ l ∈ limit?, l = limit) → counter.depth + levels = limit →
    counter.peak ≤ limit →
    read limit levels = if after.peak ≤ limit then outcome else .error (.tooDeeplyNested limit)
  refused : ∀ {limit}, limit ∈ limit? → counter.peak ≤ limit → limit < after.peak →
    outcome = .error (.tooDeeplyNested limit)

def Tracks (limit? : Option Nat) (bound : Nat) (m : Counted (Except SyntaxError Reading))
    (read : (limit levels : Nat) → Except SyntaxError Reading) : Prop :=
  ∀ counter, ∃ outcome after, m.run counter = some (outcome, after)
    ∧ Tracked limit? bound read counter outcome after

theorem Tracks.mono {bound' : Nat} (h : Tracks limit? bound m read) (hbound : bound ≤ bound') :
    Tracks limit? bound' m read := by
  intro counter
  obtain ⟨outcome, after, hrun, htracked⟩ := h counter
  refine ⟨outcome, after, hrun, { htracked with progress := ?_ }⟩
  intro result hresult
  exact Nat.lt_of_lt_of_le (htracked.progress hresult) hbound

theorem Tracks.congr {read' : Nat → Nat → Except SyntaxError Reading}
    (h : Tracks limit? bound m read)
    (hread : ∀ limit levels, read limit levels = read' limit levels) :
    Tracks limit? bound m read' := by
  have : read = read' := funext fun limit => funext fun levels => hread limit levels
  rwa [← this]

theorem tracks_pure (h : ∀ {result}, outcome = .ok result → result.next.remaining < bound) :
    Tracks limit? bound (pure outcome) (fun _ _ => outcome) := by
  intro counter
  refine ⟨outcome, counter, rfl, Nat.le_refl _, fun _ => rfl, h, ?_, ?_⟩
  · intro limit levels _ _ hpeak
    rw [if_pos hpeak]
  · intro limit _ hpeak hlt
    exact absurd hpeak (Nat.not_le.mpr hlt)

theorem tracks_error (cause : SyntaxError) :
    Tracks limit? bound (pure (.error cause)) (fun _ _ => .error cause) := by
  apply tracks_pure
  intro result hresult
  cases hresult

theorem Tracks.andThen {between : Nat} {f : Reading → Counted (Except SyntaxError Reading)}
    {second : Reading → Nat → Nat → Except SyntaxError Reading} (hm : Tracks limit? between m read)
    (hf : ∀ left, left.next.remaining < between → Tracks limit? bound (f left) (second left)) :
    Tracks limit? bound
      (do
        match ← m with
        | .error cause => return .error cause
        | .ok left => f left)
      (fun limit levels =>
        match read limit levels with
        | .error cause => .error cause
        | .ok left => second left limit levels) := by
  intro counter
  obtain ⟨outcome, mid, hrun, hfirst⟩ := hm counter
  cases outcome with
  | error cause =>
    refine ⟨.error cause, mid, by simp [hrun], hfirst.peak_le, nofun, nofun, ?_, hfirst.refused⟩
    intro limit levels hlimit hlevels hpeak
    rw [hfirst.read_eq hlimit hlevels hpeak]
    by_cases hmid : mid.peak ≤ limit
    · rw [if_pos hmid]
    · rw [if_neg hmid]
  | ok left =>
    obtain ⟨outcome, after, hrun', hsecond⟩ := hf left (hfirst.progress rfl) mid
    refine ⟨outcome, after, by simp [hrun, hrun'], ?_, ?_, hsecond.progress, ?_, ?_⟩
    · exact Nat.le_trans hfirst.peak_le hsecond.peak_le
    · intro result hresult
      rw [hsecond.restored hresult, hfirst.restored rfl]
    · intro limit levels hlimit hlevels hpeak
      rw [hfirst.read_eq hlimit hlevels hpeak]
      by_cases hmid : mid.peak ≤ limit
      · rw [if_pos hmid]
        apply hsecond.read_eq hlimit _ hmid
        rw [hfirst.restored rfl, hlevels]
      · have hafter : ¬after.peak ≤ limit := fun h => hmid (Nat.le_trans hsecond.peak_le h)
        rw [if_neg hmid, if_neg hafter]
    · intro limit hlimit hpeak hlt
      apply hsecond.refused hlimit _ hlt
      apply Nat.le_of_not_lt
      intro hmid
      cases hfirst.refused hlimit hpeak hmid

/--
What is done with a result cannot take text back.
-/
theorem Tracks.mapReading {g : Reading → Reading} (h : Tracks limit? bound m read)
    (hg : ∀ result, (g result).next.remaining ≤ result.next.remaining) :
    Tracks limit? bound (Except.map g <$> m) (fun limit levels => (read limit levels).map g) := by
  intro counter
  obtain ⟨outcome, after, hrun, htracked⟩ := h counter
  refine ⟨outcome.map g, after, by simp [hrun], htracked.peak_le, ?_, ?_, ?_, ?_⟩
  · intro result hresult
    cases outcome with
    | error => cases hresult
    | ok inner => exact htracked.restored rfl
  · intro result hresult
    cases outcome with
    | error => cases hresult
    | ok inner =>
      cases hresult
      exact Nat.lt_of_le_of_lt (hg inner) (htracked.progress rfl)
  · intro limit levels hlimit hlevels hpeak
    rw [htracked.read_eq hlimit hlevels hpeak]
    split <;> rfl
  · intro limit hlimit hpeak hlt
    rw [htracked.refused hlimit hpeak hlt]
    rfl

theorem Tracks.wrap {f : Expr → Expr} {reader : Nat → Nat → Reader} {next : Cursor}
    (h : Tracks limit? bound m (fun limit levels => (reader limit levels).read next)) :
    Tracks limit? bound (Counted.wrap f <$> m)
      (fun limit levels => ((reader limit levels).map f).read next) :=
  h.mapReading fun _ => Nat.le_refl _

theorem run_descend (limit? : Option Nat) (counter : Counter) :
    (∃ limit ∈ limit?, limit ≤ counter.depth
      ∧ (descend limit?).run counter = some (.error (.tooDeeplyNested limit), counter.down))
    ∨ ((∀ limit ∈ limit?, counter.depth < limit)
      ∧ (descend limit?).run counter = some (.ok (), counter.down)) := by
  cases limit? with
  | none => exact .inr ⟨nofun, rfl⟩
  | some limit =>
    by_cases hdepth : counter.depth < limit
    · right
      refine ⟨by rintro _ ⟨⟩; exact hdepth, ?_⟩
      simp [descend, Counter.down, Nat.not_lt.mpr hdepth]
    · left
      refine ⟨limit, rfl, Nat.le_of_not_lt hdepth, ?_⟩
      simp [descend, Counter.down, Nat.lt_succ_of_le (Nat.le_of_not_lt hdepth)]

theorem Tracks.level (h : Tracks limit? bound m read)
    (leave : Except SyntaxError Reading → Counted Unit)
    (hleave : ∀ outcome counter, ∃ after, (leave outcome).run counter = some ((), after)
      ∧ after.peak = counter.peak
      ∧ ∀ {result}, outcome = .ok result → after = counter.up) :
    Tracks limit? bound
      (do
        match ← descend limit? with
        | .error cause => return .error cause
        | .ok () =>
          let outcome ← m
          leave outcome
          return outcome)
      (fun limit levels =>
        match levels with
        | 0 => .error (.tooDeeplyNested limit)
        | levels + 1 => read limit levels) := by
  intro counter
  have hdown : counter.peak ≤ counter.down.peak := Nat.le_max_left ..
  rcases run_descend limit? counter with ⟨limit, hlimit, hdepth, hdescend⟩ | ⟨hdepth, hdescend⟩
  · refine ⟨.error (.tooDeeplyNested limit), counter.down, by simp [hdescend], hdown, nofun, nofun,
      ?_, ?_⟩
    · intro limit' levels hlimits hlevels _
      obtain rfl := hlimits limit hlimit
      obtain rfl : levels = 0 := by omega
      simp
    · intro limit' hlimit' _ _
      cases hlimit.symm.trans hlimit'
      rfl
  · obtain ⟨outcome, mid, hrun, htracked⟩ := h counter.down
    obtain ⟨after, hleft, hpeak, hup⟩ := hleave outcome mid
    refine ⟨outcome, after, by simp [hdescend, hrun, hleft], ?_, ?_, htracked.progress, ?_, ?_⟩
    · rw [hpeak]
      exact Nat.le_trans hdown htracked.peak_le
    · intro result hresult
      rw [hup hresult]
      simp [Counter.up, htracked.restored hresult, Counter.down]
    · intro limit levels hlimits hlevels hcounter
      have hmid := htracked.peak_le
      rw [hpeak]
      cases levels with
      | zero =>
        have : ¬mid.peak ≤ limit := by
          simp only [Counter.down] at hmid
          omega
        rw [if_neg this]
      | succ levels =>
        apply htracked.read_eq hlimits
        · simp only [Counter.down]
          omega
        · simp only [Counter.down]
          omega
    · intro limit hlimit hcounter hlt
      apply htracked.refused hlimit
      · have := hdepth limit hlimit
        simp only [Counter.down]
        omega
      · rwa [hpeak] at hlt

theorem Tracks.chain {op? : Char → Option BinaryOp}
    {operand : Cursor → Counted (Except SyntaxError Reading)} {reader : Nat → Nat → Reader}
    {loop : Reading → Counted (Except SyntaxError Reading)}
    (hloop : ∀ left, loop left = match left.next.eatMap? op? with
      | none => return .ok left
      | some (op, next) => do
        match ← onward left.next next fun _ => operand next with
        | .error cause => return .error cause
        | .ok right =>
          onward left.next right.next fun _ => loop ⟨.binary op left.expr right.expr, right.next⟩)
    (left : Reading)
    (h : ∀ next, next.remaining < left.next.remaining →
      Tracks limit? next.remaining (operand next)
        (fun limit levels => (reader limit levels).read next)) :
    Tracks limit? (left.next.remaining + 1) (loop left)
      (fun limit levels => Reader.extend op? (reader limit levels) left) := by
  induction hn : left.next.remaining using Nat.strongRecOn generalizing left with
  | ind n ih =>
    subst hn
    rw [hloop]
    cases hop : left.next.eatMap? op? with
    | none =>
      simp only [Reader.extend_of_eatMap?_eq_none hop]
      apply tracks_pure
      rintro result ⟨⟩
      exact Nat.lt_succ_self _
    | some found =>
      obtain ⟨op, next⟩ := found
      have hlt := Cursor.remaining_eatMap?_lt hop
      simp only [Reader.extend_of_eatMap? hop, onward_of_lt hlt]
      apply (h next hlt).andThen
      intro right hright
      let extended : Reading := ⟨.binary op left.expr right.expr, right.next⟩
      rw [onward_of_lt (Nat.lt_trans hright hlt)]
      apply (ih right.next.remaining (by omega) extended _ rfl).mono
      · omega
      · exact fun after hafter => h after (Nat.lt_trans hafter (Nat.lt_trans hright hlt))

end Counted

end Calculator
