import Mathlib.Data.List.DropRight
import Reckoner.Proofs.Acceptance

/-!
# Runs of a calculator

What a calculator answers to some actions in a row, and what it keeps. Of a run only the successful
assignments since the last reset leave a trace: the variables are those that replaying these alone
gives, in the order of their first assignment and with the values of their latest. So an action that
assigns nothing may be left out of a run without a change to the rest of it.
-/

namespace Reckoner

/-- In a run that performs its inputs one after the other, one more input is performed in the state
at the end. -/
theorem zip_run_append_singleton {σ α β : Type} (run : σ → List α → List β) (perform : σ → α → β)
    (next : σ → α → σ) (hnil : ∀ state, run state [] = [])
    (hcons : ∀ state input inputs,
      run state (input :: inputs) = perform state input :: run (next state input) inputs)
    (state : σ) (inputs : List α) (last : α) :
    (inputs ++ [last]).zip (run state (inputs ++ [last])) =
      inputs.zip (run state inputs) ++ [(last, perform (inputs.foldl next state) last)] := by
  induction inputs generalizing state with
  | nil => rw [List.nil_append, hcons, hnil, hnil]; rfl
  | cons input inputs ih =>
    rw [List.cons_append, hcons, hcons, List.zip_cons_cons, List.zip_cons_cons, ih]
    rfl

namespace Bindings

/-- The names in their order. -/
def names (bindings : Bindings) : List String :=
  bindings.entries.map Prod.fst

/-- Setting a name adds it at the end, unless it is there. -/
theorem names_set (bindings : Bindings) (name : String) (value : Float) :
    (bindings.set name value).names =
      if name ∈ bindings.names then bindings.names else bindings.names ++ [name] := by
  obtain ⟨entries⟩ := bindings
  change (setEntry name value entries).map Prod.fst =
    if name ∈ entries.map Prod.fst then entries.map Prod.fst else entries.map Prod.fst ++ [name]
  induction entries with
  | nil => rfl
  | cons entry entries ih =>
    rw [setEntry]
    by_cases hk : entry.1 = name
    · simp [hk]
    · have hkey : (entry.1 == name) = false := beq_eq_false_iff_ne.mpr hk
      have hname : name ≠ entry.1 := Ne.symm hk
      rw [hkey, if_neg Bool.false_ne_true, List.map_cons, ih, List.map_cons]
      by_cases hm : name ∈ entries.map Prod.fst
      · rw [if_pos hm, if_pos (List.mem_cons_of_mem _ hm)]
      · rw [if_neg hm, if_neg (by simp [hname, hm]), List.cons_append]

/-- A name that has a value is among the names. -/
theorem mem_names {bindings : Bindings} {name : String} {value : Float}
    (h : bindings.get? name = some value) : name ∈ bindings.names := by
  obtain ⟨front, back, hentries, -⟩ := List.lookup_eq_some_iff.mp h
  rw [names, hentries]
  simp

/-- One more assignment sets its name. -/
theorem ofList_append_singleton (assignments : List (String × Float)) (name : String)
    (value : Float) :
    ofList (assignments ++ [(name, value)]) = (ofList assignments).set name value :=
  List.foldl_append

/-- After some assignments a name has the value of its latest one. -/
theorem get?_ofList (assignments : List (String × Float)) (name : String) :
    (ofList assignments).get? name = assignments.reverse.lookup name := by
  induction assignments using List.reverseRecOn with
  | nil => rfl
  | append_singleton assignments last ih =>
    obtain ⟨key, value⟩ := last
    rw [ofList_append_singleton, get?_set, ih, List.reverse_append, List.reverse_singleton,
      List.singleton_append, List.lookup_cons]
    by_cases h : name = key
    · simp [h]
    · have hkey : (name == key) = false := beq_eq_false_iff_ne.mpr h
      rw [if_neg h, hkey]

/-- After some assignments the names stand in the order of their first ones. -/
theorem names_ofList (assignments : List (String × Float)) :
    (ofList assignments).names = (assignments.map Prod.fst).eraseDups := by
  induction assignments using List.reverseRecOn with
  | nil => rfl
  | append_singleton assignments last ih =>
    obtain ⟨key, value⟩ := last
    rw [ofList_append_singleton, names_set, ih, List.map_append, List.eraseDups_append,
      List.map_singleton]
    by_cases h : key ∈ assignments.map Prod.fst
    · simp [h, List.removeAll]
    · simp [h, List.removeAll, List.eraseDups_cons]

/-- After some assignments no name stands twice. -/
theorem nodup_names_ofList (assignments : List (String × Float)) :
    (ofList assignments).names.Nodup := by
  induction assignments using List.reverseRecOn with
  | nil => exact List.nodup_nil
  | append_singleton assignments last ih =>
    rw [ofList_append_singleton, names_set]
    split
    next => exact ih
    next h => simpa [List.nodup_append, ih] using fun other hother => ne_of_mem_of_not_mem hother h

end Bindings

namespace Calculator

/-- Whether an action is a reset. -/
def Action.isReset : Action → Bool
  | .reset => true
  | _ => false

/-- The calculator after some actions in a row. -/
def follow (calculator : Calculator) (actions : List Action) : Calculator :=
  actions.foldl (fun calculator action => (calculator.perform action).2) calculator

/-- Some actions in a row, each with its answer and the calculator after it. -/
def trace (calculator : Calculator) (actions : List Action) :
    List (Action × Answer × Calculator) :=
  actions.zip (calculator.run actions)

/-- The name that a text assigns to, if any. -/
def targetOf (text : String) : Option String :=
  (Statement.ofTokens (Token.ofText text)).target

/-- The assignment of an action that is answered so, if it makes one. -/
def assignment? : Action → Answer → Option (String × Float)
  | .evaluate expression, .value (.ok value) => (targetOf expression).map (·, value)
  | .explain expression, .explanation (.ok explanation) =>
    (targetOf expression).map (·, explanation.value)
  | _, _ => none

/-- The assignments behind the last reset. -/
def assignments (entries : List (Action × Answer × Calculator)) : List (String × Float) :=
  (entries.rtakeWhile (!·.1.isReset)).filterMap fun (action, answer, _) => assignment? action answer

/-- What is left of a row of actions if some that neither assign nor reset are left out. -/
inductive Thins :
    List (Action × Answer × Calculator) → List (Action × Answer × Calculator) → Prop where
  /-- Nothing is left of nothing. -/
  | nil : Thins [] []
  /-- An action stays. -/
  | keep (entry : Action × Answer × Calculator) {entries kept : List (Action × Answer × Calculator)}
      (rest : Thins entries kept) : Thins (entry :: entries) (entry :: kept)
  /-- An action that neither assigns nor resets is left out. -/
  | leave {entry : Action × Answer × Calculator}
      {entries kept : List (Action × Answer × Calculator)}
      (resets : entry.1.isReset = false) (assigns : assignment? entry.1 entry.2.1 = none)
      (rest : Thins entries kept) : Thins (entry :: entries) kept

/-- One more action is answered by the calculator at the end. -/
theorem trace_append_singleton (calculator : Calculator) (actions : List Action)
    (action : Action) :
    calculator.trace (actions ++ [action]) =
      calculator.trace actions ++ [(action, (calculator.follow actions).perform action)] :=
  zip_run_append_singleton run perform (fun calculator action => (calculator.perform action).2)
    (fun _ => rfl) (fun _ _ _ => rfl) calculator actions action

/-- More actions go on where some have led. -/
theorem follow_append (calculator : Calculator) (actions more : List Action) :
    calculator.follow (actions ++ more) = (calculator.follow actions).follow more :=
  List.foldl_append

/-- A text has an explanation exactly if its tokens can be arranged and their arrangement has the
value and the steps that the explanation tells. -/
theorem explain_eq_ok_iff {calculator after : Calculator} {expression : String}
    {explanation : Explanation} :
    calculator.explain expression = .ok (explanation, after) ↔
      ∃ rpn value steps, Rpn.arrange (expressionTokens expression) = .ok rpn ∧
        evaluateWithSteps calculator.bindings rpn = .ok (value, steps) ∧
        explanation = ⟨expression, value, rpn, steps, targetOf expression⟩ ∧
        after = calculator.commit (targetOf expression) value := by
  change ((prepare expression).bind fun prepared =>
    (evaluateWithSteps calculator.bindings prepared.rpn).bind fun result =>
      .ok (Explanation.mk expression result.1 prepared.rpn result.2 prepared.target,
        calculator.commit prepared.target result.1)) = _ ↔ _
  simp only [Outcome.bind_eq_ok_iff, prepare_eq_ok_iff, Except.ok.injEq, Prod.mk.injEq]
  constructor
  · rintro ⟨prepared, ⟨rpn, ha, rfl⟩, ⟨value, steps⟩, he, rfl, rfl⟩
    exact ⟨rpn, value, steps, ha, he, rfl, rfl⟩
  · rintro ⟨rpn, value, steps, ha, he, rfl, rfl⟩
    exact ⟨_, ⟨rpn, ha, rfl⟩, (value, steps), he, rfl, rfl⟩

/-- An explanation that succeeds commits its value. -/
theorem explain_commits {calculator after : Calculator} {expression : String}
    {explanation : Explanation}
    (h : calculator.explain expression = .ok (explanation, after)) :
    after = calculator.commit (targetOf expression) explanation.value := by
  obtain ⟨rpn, value, steps, -, -, rfl, rfl⟩ := explain_eq_ok_iff.mp h
  rfl

/-- Committing a value sets the name for it, if there is one. -/
theorem commit_bindings (calculator : Calculator) (target : Option String) (value : Float) :
    (calculator.commit target value).bindings =
      (target.map (·, value)).elim calculator.bindings fun (name, value) =>
        calculator.bindings.set name value := by
  cases target <;> rfl

/-- An action other than a reset changes the variables by its assignment. -/
theorem perform_bindings (calculator : Calculator) {action : Action}
    (h : action.isReset = false) :
    (calculator.perform action).2.bindings =
      (assignment? action (calculator.perform action).1).elim calculator.bindings
        fun (name, value) => calculator.bindings.set name value := by
  cases action with
  | evaluate expression =>
    rw [perform]
    cases he : calculator.evaluate expression with
    | error failure => rfl
    | ok result =>
      obtain ⟨value, after⟩ := result
      obtain ⟨rpn, -, -, rfl⟩ := evaluate_eq_ok_iff.mp he
      exact commit_bindings calculator _ value
  | explain expression =>
    rw [perform]
    cases he : calculator.explain expression with
    | error failure => rfl
    | ok result =>
      obtain ⟨explanation, after⟩ := result
      cases explain_commits he
      exact commit_bindings calculator _ explanation.value
  | bindings => rfl
  | reset => cases h
  | editCopy name value => rfl

/-- An action that neither assigns nor resets leaves the calculator as it was. -/
theorem perform_of_idle {calculator : Calculator} {action : Action}
    (hreset : action.isReset = false)
    (hassign : assignment? action (calculator.perform action).1 = none) :
    (calculator.perform action).2 = calculator := by
  have h := perform_bindings calculator hreset
  rw [hassign] at h
  exact congrArg Calculator.mk h

/-- What is left of a row of actions is answered as in the whole row. -/
theorem Thins.trace_eq {calculator : Calculator} {actions : List Action}
    {kept : List (Action × Answer × Calculator)} (h : Thins (calculator.trace actions) kept) :
    calculator.trace (kept.map Prod.fst) = kept := by
  induction actions generalizing calculator kept with
  | nil =>
    cases h
    rfl
  | cons action actions ih =>
    have hfirst : calculator.trace (action :: actions) =
        (action, calculator.perform action) :: (calculator.perform action).2.trace actions := rfl
    rw [hfirst] at h
    cases h with
    | @keep _ _ kept rest => exact congrArg (_ :: ·) (ih rest)
    | leave resets assigns rest =>
      rw [perform_of_idle resets assigns] at rest
      exact ih rest

/-- One more action adds its assignment, or forgets them all. -/
theorem assignments_append_singleton (entries : List (Action × Answer × Calculator))
    (entry : Action × Answer × Calculator) :
    assignments (entries ++ [entry]) =
      if entry.1.isReset then [] else
        assignments entries ++ (assignment? entry.1 entry.2.1).toList := by
  unfold assignments
  rw [List.rtakeWhile_concat]
  cases hr : entry.1.isReset with
  | true => simp
  | false => cases ha : assignment? entry.1 entry.2.1 <;> simp [ha]

/-- After some actions the variables are what the assignments since the last reset make. -/
theorem follow_bindings (actions : List Action) :
    (fresh.follow actions).bindings = Bindings.ofList (assignments (fresh.trace actions)) := by
  induction actions using List.reverseRecOn with
  | nil => rfl
  | append_singleton actions action ih =>
    have hfollow : fresh.follow (actions ++ [action]) =
        ((fresh.follow actions).perform action).2 := follow_append fresh actions [action]
    rw [trace_append_singleton, assignments_append_singleton, hfollow]
    cases hr : action.isReset with
    | true =>
      cases action with
      | reset => rfl
      | _ => cases hr
    | false =>
      rw [perform_bindings _ hr, if_neg Bool.false_ne_true]
      cases assignment? action ((fresh.follow actions).perform action).1 with
      | none => rw [Option.elim, Option.toList, List.append_nil, ih]
      | some assignment =>
        obtain ⟨name, value⟩ := assignment
        rw [Option.elim, Option.toList, Bindings.ofList_append_singleton, ih]

/-- The name that a text assigns to is a lexeme. -/
theorem isName_targetOf {text name : String} (h : targetOf text = some name) :
    Token.IsName name.toList := by
  have hmem : .identifier name ∈ Token.ofText text := by
    rw [ofText_eq, ← targetOf, h]
    exact List.mem_cons_self
  exact Token.isValid_of_mem_ofText hmem

/-- An action assigns to the name that its text assigns to. -/
theorem exists_targetOf {action : Action} {answer : Answer} {name : String} {value : Float}
    (h : assignment? action answer = some (name, value)) : ∃ text, targetOf text = some name := by
  unfold assignment? at h
  split at h
  next text _ =>
    obtain ⟨target, htarget, hpair⟩ := Option.map_eq_some_iff.mp h
    exact ⟨text, htarget.trans (congrArg (some ·.1) hpair)⟩
  next text _ =>
    obtain ⟨target, htarget, hpair⟩ := Option.map_eq_some_iff.mp h
    exact ⟨text, htarget.trans (congrArg (some ·.1) hpair)⟩
  next => cases h

/-- Every variable of a run is a lexeme. -/
theorem isName_of_mem_names {actions : List Action} {name : String}
    (h : name ∈ (fresh.follow actions).bindings.names) : Token.IsName name.toList := by
  rw [follow_bindings, Bindings.names_ofList, List.mem_eraseDups] at h
  obtain ⟨⟨_, value⟩, hmem, rfl⟩ := List.mem_map.mp h
  obtain ⟨entry, -, hassign⟩ := List.mem_filterMap.mp hmem
  obtain ⟨text, htext⟩ := exists_targetOf hassign
  exact isName_targetOf htext

/-- The name of a variable has its value, and asking for it changes nothing. -/
theorem evaluate_name {calculator : Calculator} {name : String} {value : Float}
    (hname : Token.IsName name.toList) (hvalue : calculator.bindings.get? name = some value) :
    calculator.evaluate name = .ok (value, calculator) := by
  have htokens : Token.ofText name = [.identifier name] := Token.ofText_of_isName hname
  have hrecall : Meaning calculator.bindings (.identifier name) (.recall name value) :=
    .recalled rfl hvalue
  refine evaluate_eq_ok_iff.mpr ⟨[.identifier name], ?_, ?_, ?_⟩
  · rw [expressionTokens, htokens]
    rfl
  · rw [Reckoner.evaluate_eq_ok_iff, Evaluation.runFrom_singleton (ofToken_eq_ok_iff.mpr hrecall)]
    rfl
  · rw [htokens]
    rfl

/-- A run from a fresh calculator replays its assignments since the last reset: its variables stand
in the order of the first ones and have the values of the latest. What assigns nothing may be left
out, and the name of a variable has the variable's value. -/
theorem follow_replays (actions : List Action) :
    (fresh.follow actions).bindings = Bindings.ofList (assignments (fresh.trace actions)) ∧
    (fresh.follow actions).bindings.names =
      ((assignments (fresh.trace actions)).map Prod.fst).eraseDups ∧
    (fresh.follow actions).bindings.names.Nodup ∧
    (∀ name, (fresh.follow actions).bindings.get? name =
      (assignments (fresh.trace actions)).reverse.lookup name) ∧
    (∀ kept, Thins (fresh.trace actions) kept → fresh.trace (kept.map Prod.fst) = kept) ∧
    ∀ name value, (fresh.follow actions).bindings.get? name = some value →
      (fresh.follow actions).evaluate name = .ok (value, fresh.follow actions) := by
  have hreplay := follow_bindings actions
  refine ⟨hreplay, ?_, ?_, ?_, fun kept h => h.trace_eq, ?_⟩
  · rw [hreplay, Bindings.names_ofList]
  · rw [hreplay]
    exact Bindings.nodup_names_ofList _
  · intro name
    rw [hreplay, Bindings.get?_ofList]
  · intro name value h
    exact evaluate_name (isName_of_mem_names (Bindings.mem_names h)) h

/-- A name of a constant or a function may be assigned to; a text without a value assigns nothing. -/
example : (fresh.follow [.evaluate "pi = 4", .evaluate "e =", .explain "sin = -pi",
    .evaluate "pi = sin"]).bindings.names = ["pi", "sin"] := by
  decide +kernel

end Calculator

end Reckoner
