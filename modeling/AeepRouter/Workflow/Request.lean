import AeepRouter.Stack.Goal

/-!
# Workflows

A workflow is a graph of steps a caller wrote; a binding replaces a part of a step's input by a part
of the workflow's input or of another step's output, both named by JSON pointers.
`WorkflowRequest.validate` is the validation of the model. Objects have distinct keys, and the digits
of an array index are the decimal ones of Unicode 15; other digits are refused by `int`, as all the rest
is by `isdigit`.
-/

namespace AeepRouter.Workflow

open Lib Stack

/-! ## JSON pointers -/

/-- `part.replace("~d", c)`. -/
def unescapeOne (d c : Char) : List Char → List Char
  | '~' :: e :: rest => if e = d then c :: unescapeOne d c rest else '~' :: unescapeOne d c (e :: rest)
  | e :: rest => e :: unescapeOne d c rest
  | [] => []

def tokens (pointer : String) : Result (List String) :=
  if pointer.toList = [] then .ok []
  else
    match pointer.toList.splitOn '/' with
    | [] :: parts =>
      .ok (parts.map fun part => String.ofList (unescapeOne '0' '~' (unescapeOne '1' '/' part)))
    | _ => .error (.value "workflow paths must be RFC 6901 JSON Pointers")

/-- The decimal digits zero; the others of each script follow them. -/
def decimalZeros : List ℕ :=
    [0x30, 0x660, 0x6f0, 0x7c0, 0x966, 0x9e6, 0xa66, 0xae6, 0xb66, 0xbe6, 0xc66, 0xce6, 0xd66,
    0xde6, 0xe50, 0xed0, 0xf20, 0x1040, 0x1090, 0x17e0, 0x1810, 0x1946, 0x19d0, 0x1a80, 0x1a90,
    0x1b50, 0x1bb0, 0x1c40, 0x1c50, 0xa620, 0xa8d0, 0xa900, 0xa9d0, 0xa9f0, 0xaa50, 0xabf0,
    0xff10, 0x104a0, 0x10d30, 0x11066, 0x110f0, 0x11136, 0x111d0, 0x112f0, 0x11450, 0x114d0,
    0x11650, 0x116c0, 0x11730, 0x118e0, 0x11950, 0x11c50, 0x11d50, 0x11da0, 0x11f50, 0x16a60,
    0x16ac0, 0x16b50, 0x1d7ce, 0x1d7d8, 0x1d7e2, 0x1d7ec, 0x1d7f6, 0x1e140, 0x1e2f0, 0x1e4f0,
    0x1e950, 0x1fbf0]

def decimal? (c : Char) : Option ℕ :=
  (decimalZeros.find? fun first => first ≤ c.toNat ∧ c.toNat < first + 10).map (c.toNat - ·)

/-- `int(token)`, of a text of digits. -/
def index? (token : String) : Option ℕ :=
  if token.toList = [] then none
  else (token.toList.mapM decimal?).map fun digits => digits.foldl (fun n digit => 10 * n + digit) 0

def child? (value : Json) (token : String) : Option Json :=
  match value with
  | .obj fields => fields.lookup token
  | .arr items => (index? token).bind fun i => items[i]?
  | _ => none

def pointerGet (value : Json) (pointer : String) : Result Json := do
  (← tokens pointer).foldlM
    (fun current token => require (child? current token)
      (.value ("JSON Pointer '" ++ pointer ++ "' does not exist"))) value

def setChild (value : Json) (token : String) (part : Json) : Json :=
  match value with
  | .obj fields => .obj (fields.map fun field => if field.1 = token then (token, part) else field)
  | .arr items => .arr ((index? token).elim items fun i => items.set i part)
  | value => value

def replaceAt (replacement : Json) : List String → Json → Option Json
  | [], _ => some replacement
  | token :: path, value =>
    (child? value token).bind fun part =>
      (replaceAt replacement path part).map (setChild value token)

def pointerReplace (value : Json) (pointer : String) (replacement : Json) : Result Json := do
  let path ← tokens pointer
  raiseIf (path = []) (.value "binding cannot replace the action-input root")
  require (replaceAt replacement path value)
    (.value ("binding target '" ++ pointer ++ "' does not exist"))

/-! ## Requests -/

/-- What a step asks for; the other fields of an `ActionRequest` are read by routing alone. -/
structure ActionRequest where
  capability : String
  input : Json

structure WorkflowInputBinding where
  targetPath : String
  sourceStepId : Option String
  sourcePath : String
  deriving DecidableEq

structure WorkflowStep where
  stepId : String
  action : ActionRequest
  dependsOn : List String := []
  bindings : List WorkflowInputBinding := []

structure WorkflowOutputProjection where
  name : String
  stepId : String
  path : String
  deriving DecidableEq

structure WorkflowRequest where
  workflowId : String
  input : Json := .obj []
  steps : List WorkflowStep
  outputs : List WorkflowOutputProjection := []

namespace WorkflowRequest

def ids (workflow : WorkflowRequest) : List String := workflow.steps.map (·.stepId)

/-- What the step of that name waits for. -/
def dependencies (workflow : WorkflowRequest) (stepId : String) : List String :=
  ((workflow.steps.find? (·.stepId = stepId)).map (·.dependsOn)).getD []

/-- No step waits for itself, directly or through others. -/
def Acyclic (workflow : WorkflowRequest) : Prop :=
  Layers.Acyclic workflow.dependencies workflow.ids

instance (workflow : WorkflowRequest) : Decidable (workflow.ids.Nodup → workflow.Acyclic) :=
  if h : workflow.ids.Nodup then
    decidable_of_iff
      ((Layers.layers workflow.dependencies id workflow.ids.length workflow.ids).Perm workflow.ids) <|
      have hacyclic := Layers.acyclic_iff workflow.dependencies (fun l => .refl l) h
      ⟨fun hp _ => hacyclic.mpr hp, fun ha => hacyclic.mp (ha h)⟩
  else isTrue fun h' => absurd h' h

def checkBinding (workflow : WorkflowRequest) (step : WorkflowStep)
    (binding : WorkflowInputBinding) : Result Unit := do
  raiseIf (∃ source ∈ binding.sourceStepId, source ∉ step.dependsOn)
    (.value "binding source must be a declared dependency")
  let _ ← tokens binding.targetPath
  let _ ← tokens binding.sourcePath
  let _ ← pointerGet step.action.input binding.targetPath
  match binding.sourceStepId with
  | none => do
    let _ ← pointerGet workflow.input binding.sourcePath
    pure ()
  | some _ => pure ()

def checkStep (workflow : WorkflowRequest) (step : WorkflowStep) : Result Unit := do
  raiseIf (step.stepId ∈ step.dependsOn ∨ ¬ step.dependsOn ⊆ workflow.ids)
    (.value ("invalid dependency for step '" ++ step.stepId ++ "'"))
  raiseIf (¬ (step.bindings.map (·.targetPath)).Nodup)
    (.value ("duplicate binding target for step '" ++ step.stepId ++ "'"))
  step.bindings.forM (workflow.checkBinding step)

def checkProjection (workflow : WorkflowRequest) (projection : WorkflowOutputProjection) :
    Result Unit := do
  raiseIf (projection.stepId ∉ workflow.ids) (.value "workflow output references unknown step")
  let _ ← tokens projection.path
  pure ()

/-- The validation of a `WorkflowRequest`; an error of a field names the field. -/
def validate (workflow : WorkflowRequest) : Result Unit := do
  raiseIf (workflow.steps = [] ∨ 64 < workflow.steps.length) (.value "steps")
  raiseIf (¬ ∀ step ∈ workflow.steps, isStepId step.stepId) (.value "step_id")
  raiseIf (¬ ∀ step ∈ workflow.steps, step.dependsOn.Nodup) (.value "duplicate workflow dependency")
  raiseIf (¬ workflow.ids.Nodup) (.value "duplicate workflow step id")
  workflow.steps.forM workflow.checkStep
  raiseIf (¬ (workflow.ids.Nodup → workflow.Acyclic)) (.value "workflow dependency cycle")
  raiseIf (¬ (workflow.outputs.map (·.name)).Nodup) (.value "duplicate workflow output name")
  workflow.outputs.forM workflow.checkProjection

structure Valid (workflow : WorkflowRequest) : Prop where
  nodup : workflow.ids.Nodup
  dependencies : ∀ step ∈ workflow.steps, step.dependsOn ⊆ workflow.ids
  acyclic : workflow.Acyclic
  outputs : ∀ projection ∈ workflow.outputs, projection.stepId ∈ workflow.ids

theorem validate_ok {workflow : WorkflowRequest} (h : workflow.validate = .ok ()) :
    workflow.Valid := by
  simp only [validate, checkStep, checkProjection, bind_ok, raiseIf_ok, exists_const, not_not,
    not_or, forM_ok] at h
  obtain ⟨-, -, -, hnodup, hsteps, hacyclic, -, houtputs⟩ := h
  exact ⟨hnodup, fun step hstep => (hsteps step hstep).1.2, hacyclic hnodup,
    fun projection hprojection => (houtputs projection hprojection).1⟩

end WorkflowRequest

end AeepRouter.Workflow
