import BubllioCrm.Costing.Serializers
import BubllioCrm.Foundations.Execution
import BubllioCrm.Foundations.Table
import BubllioCrm.Tenancy.Currencies

/-!
Owns what a cost line keeps of the catalogue: the PATCH requests that edit the
collaborators and the services, those on the line itself, and which of them can
change the values that the line has taken over.

Requests run one after the other. A request that is refused changes nothing.
-/

namespace BubllioCrm.Costing

open BubllioCrm.Foundations

/-- `DealCostLine.save`. -/
def DealCostLine.save (casing : Casing) (line : DealCostLine) : DealCostLine :=
  { line with currency := casing.upper line.currency }

structure CollaboratorAttrs where
  name : Option String := none
  isActive : Option Bool := none
deriving DecidableEq

def CollaboratorAttrs.setOn (attrs : CollaboratorAttrs) (collaborator : ExternalCollaborator) :
    ExternalCollaborator :=
  { collaborator with
    name := attrs.name.getD collaborator.name
    isActive := attrs.isActive.getD collaborator.isActive }

/-- A PATCH request. The organization and the id are those of its path. -/
inductive Edit where
  | collaborator (organization id : Nat) (attrs : CollaboratorAttrs)
  | service (organization id : Nat) (attrs : ServiceAttrs)
  | line (attrs : LineAttrs)
deriving DecidableEq

/-- The catalogue, and a cost line with the currency of its deal. -/
structure Workspace where
  collaborators : List ExternalCollaborator := []
  services : List CollaboratorService := []
  dealCurrency : String
  line : DealCostLine
deriving DecidableEq

namespace Workspace

def catalog (workspace : Workspace) : Catalog where
  collaborators id := workspace.collaborators.find? (·.id = id)
  services id := workspace.services.find? (·.id = id)

/-- `ExternalCollaboratorDetailAPIView.patch`. -/
def patchCollaborator (organization id : Nat) (attrs : CollaboratorAttrs) (workspace : Workspace) :
    Workspace :=
  { workspace with
    collaborators := updateWhere (fun row => row.id = id ∧ row.organization = organization)
      attrs.setOn workspace.collaborators }

/-- `CollaboratorServiceDetailAPIView.patch`. -/
def patchService (casing : Casing) (organization id : Nat) (attrs : ServiceAttrs)
    (workspace : Workspace) : Workspace :=
  match workspace.services.find? fun row => row.id = id ∧ row.organization = organization with
  | none => workspace
  | some service =>
      match validateService casing workspace.catalog.collaborators organization (some service)
        attrs with
      | .error _ => workspace
      | .ok accepted =>
          { workspace with
            services := updateWhere (·.id = id) (fun _ => accepted.setOn casing service)
              workspace.services }

/-- `DealCostLineDetailAPIView.patch`. The name of the collaborator is read-only. -/
def patchLine (casing : Casing) (attrs : LineAttrs) (workspace : Workspace) : Workspace :=
  match validateLine casing workspace.catalog workspace.line.organization workspace.dealCurrency
    (some workspace.line) { attrs with collaboratorName := none } with
  | .error _ => workspace
  | .ok accepted => { workspace with line := accepted.setOn casing workspace.line }

def step (casing : Casing) (workspace : Workspace) : Edit → Workspace
  | .collaborator organization id attrs => workspace.patchCollaborator organization id attrs
  | .service organization id attrs => workspace.patchService casing organization id attrs
  | .line attrs => workspace.patchLine casing attrs

/-- The request leaves the line with its collaborator and with its service, or
with no service. -/
structure KeepsRows (casing : Casing) (workspace : Workspace) (edit : Edit) : Prop where
  collaborator : (workspace.step casing edit).line.collaborator = workspace.line.collaborator
  collaboratorService :
    (workspace.step casing edit).line.collaboratorService = workspace.line.collaboratorService ∨
      (workspace.step casing edit).line.collaboratorService = none

instance (casing : Casing) (workspace : Workspace) (edit : Edit) :
    Decidable (KeepsRows casing workspace edit) :=
  decidable_of_iff (_ ∧ _) ⟨fun both => ⟨both.1, both.2⟩, fun keeps => ⟨keeps.1, keeps.2⟩⟩

end Workspace

/-- A field keeps its value, or one of the requests gives it the one it has now. -/
def Supplied {Value : Type} (given : LineAttrs → Prop) (field : LineAttrs → Option Value)
    (before after : Value) : Prop :=
  after = before ∨ ∃ attrs, given attrs ∧ field attrs = some after

/-- What a line takes over from the catalogue changes only to values that one of
the requests gives. A currency is given in any case of its letters. -/
structure Stable (casing : Casing) (given : LineAttrs → Prop) (before after : DealCostLine) :
    Prop where
  collaboratorName : after.collaboratorName = before.collaboratorName
  serviceName : Supplied given LineAttrs.serviceName before.serviceName after.serviceName
  description : Supplied given LineAttrs.description before.description after.description
  unitCost : Supplied given LineAttrs.unitCost before.unitCost after.unitCost
  currency : Supplied given (fun attrs => attrs.currency.map casing.upper) before.currency
    after.currency

variable {casing : Casing} {Value : Type} {given wider : LineAttrs → Prop}

/-! ### Requests one after the other -/

theorem Supplied.trans {field : LineAttrs → Option Value} {first second third : Value}
    (earlier : Supplied given field first second) (later : Supplied given field second third) :
    Supplied given field first third := by
  rcases later with same | supplied
  · rw [same]
    exact earlier
  · exact Or.inr supplied

theorem Supplied.mono {field : LineAttrs → Option Value} {before after : Value}
    (supplied : Supplied given field before after) (more : ∀ attrs, given attrs → wider attrs) :
    Supplied wider field before after := by
  rcases supplied with same | ⟨attrs, isGiven, isValue⟩
  · exact Or.inl same
  · exact Or.inr ⟨attrs, more attrs isGiven, isValue⟩

theorem Stable.refl (line : DealCostLine) : Stable casing given line line :=
  ⟨rfl, Or.inl rfl, Or.inl rfl, Or.inl rfl, Or.inl rfl⟩

theorem Stable.trans {first second third : DealCostLine}
    (earlier : Stable casing given first second) (later : Stable casing given second third) :
    Stable casing given first third where
  collaboratorName := later.collaboratorName.trans earlier.collaboratorName
  serviceName := earlier.serviceName.trans later.serviceName
  description := earlier.description.trans later.description
  unitCost := earlier.unitCost.trans later.unitCost
  currency := earlier.currency.trans later.currency

theorem Stable.mono {before after : DealCostLine} (stable : Stable casing given before after)
    (more : ∀ attrs, given attrs → wider attrs) : Stable casing wider before after where
  collaboratorName := stable.collaboratorName
  serviceName := stable.serviceName.mono more
  description := stable.description.mono more
  unitCost := stable.unitCost.mono more
  currency := stable.currency.mono more

/-! ### One request on the line -/

theorem supplied_getD {field : LineAttrs → Option Value} {attrs : LineAttrs} {before : Value} :
    Supplied (· = attrs) field before ((field attrs).getD before) := by
  cases named : field attrs with
  | none => exact Or.inl rfl
  | some value => exact Or.inr ⟨attrs, rfl, named⟩

variable {catalog : Catalog} {line : DealCostLine} {attrs accepted : LineAttrs}

/-- No service of the catalogue is looked at. -/
theorem takeDefaults_of_kept
    (kept : attrs.collaboratorService.getD line.collaboratorService = line.collaboratorService ∨
      attrs.collaboratorService.getD line.collaboratorService = none) :
    takeDefaults catalog (some line) attrs = attrs := by
  unfold takeDefaults
  rw [Option.bind_some]
  rcases kept with same | none
  · rw [same]
    dsimp only
    split
    · rfl
    · rw [if_neg (by simp)]
  · rw [none]
    rfl

theorem nameCollaborator_of_kept
    (kept : attrs.collaborator.getD line.collaborator = line.collaborator) :
    nameCollaborator catalog (some line) attrs = attrs := by
  unfold nameCollaborator
  cases named : attrs.collaborator with
  | none => rfl
  | some collaborator =>
      rw [named, Option.getD_some] at kept
      exact if_pos (congrArg some kept.symm)

/-- A request that keeps to the rows of the line is accepted as it stands. -/
theorem accepted_eq {organization : Nat} {dealCurrency : String}
    (valid : validateLine casing catalog organization dealCurrency (some line) attrs =
      .ok accepted)
    (collaboratorKept : (accepted.setOn casing line).collaborator = line.collaborator)
    (serviceKept :
      (accepted.setOn casing line).collaboratorService = line.collaboratorService ∨
        (accepted.setOn casing line).collaboratorService = none) :
    accepted = { attrs with currency := some (casing.upper (attrs.currency.getD line.currency)) } ∧
      casing.upper (attrs.currency.getD line.currency) = casing.upper dealCurrency := by
  have ⟨_, references, _⟩ := validateLine_ok valid
  have ⟨_, sameCurrency, isAccepted⟩ := validateLine_eq valid
  have defaulted : takeDefaults catalog (some line) attrs = attrs := by
    apply takeDefaults_of_kept
    rw [← references.collaboratorService]
    exact serviceKept
  rw [defaulted] at sameCurrency isAccepted
  have named : (attrs.currency <|> (some line).map DealCostLine.currency).getD "" =
      attrs.currency.getD line.currency := by
    cases attrs.currency <;> rfl
  rw [named] at sameCurrency
  have unnamed : nameCollaborator catalog (some line)
      { attrs with currency := some (casing.upper dealCurrency) } =
        { attrs with currency := some (casing.upper dealCurrency) } := by
    apply nameCollaborator_of_kept
    show attrs.collaborator.getD line.collaborator = line.collaborator
    rw [← references.collaborator]
    exact collaboratorKept
  rw [unnamed, ← sameCurrency] at isAccepted
  exact ⟨isAccepted, sameCurrency⟩

/-! ### Runs -/

namespace Workspace

/-- What `save` leaves. -/
def Saved (casing : Casing) (workspace : Workspace) : Prop :=
  casing.upper workspace.line.currency = workspace.line.currency

/-- The line has the currency of its deal. -/
def Priced (casing : Casing) (workspace : Workspace) : Prop :=
  workspace.line.currency = casing.upper workspace.dealCurrency

variable {workspace : Workspace} {edit : Edit} {edits : List Edit}

/-- A request on the catalogue does not touch the line. -/
theorem line_patchService {organization id : Nat} {attrs : ServiceAttrs} :
    (workspace.patchService casing organization id attrs).line = workspace.line ∧
      (workspace.patchService casing organization id attrs).dealCurrency =
        workspace.dealCurrency := by
  unfold patchService
  split
  · exact ⟨rfl, rfl⟩
  · split
    · exact ⟨rfl, rfl⟩
    · exact ⟨rfl, rfl⟩

/-- A request leaves the line as it is, or it is one on the line that the checks accept. -/
theorem step_cases (casing : Casing) (workspace : Workspace) (edit : Edit) :
    (workspace.step casing edit).dealCurrency = workspace.dealCurrency ∧
      ((workspace.step casing edit).line = workspace.line ∨
        ∃ attrs accepted, edit = .line attrs ∧
          validateLine casing workspace.catalog workspace.line.organization workspace.dealCurrency
            (some workspace.line) { attrs with collaboratorName := none } = .ok accepted ∧
          (workspace.step casing edit).line = accepted.setOn casing workspace.line) := by
  cases edit with
  | collaborator organization id attrs => exact ⟨rfl, Or.inl rfl⟩
  | service organization id attrs => exact ⟨line_patchService.2, Or.inl line_patchService.1⟩
  | line attrs =>
      have isStep : workspace.step casing (.line attrs) = workspace.patchLine casing attrs := rfl
      rw [isStep, patchLine]
      cases valid : validateLine casing workspace.catalog workspace.line.organization
          workspace.dealCurrency (some workspace.line) { attrs with collaboratorName := none } with
      | error errors => exact ⟨rfl, Or.inl rfl⟩
      | ok accepted => exact ⟨rfl, Or.inr ⟨attrs, accepted, rfl, valid, rfl⟩⟩

theorem Saved.step (saved : workspace.Saved casing) : (workspace.step casing edit).Saved casing := by
  unfold Saved
  rcases (step_cases casing workspace edit).2 with kept | ⟨attrs, accepted, -, -, written⟩
  · rw [kept]
    exact saved
  · rw [written]
    exact casing.upper_upper _

theorem Priced.step (priced : workspace.Priced casing) :
    (workspace.step casing edit).Priced casing := by
  have ⟨sameDeal, outcome⟩ := step_cases casing workspace edit
  unfold Priced
  rw [sameDeal]
  rcases outcome with kept | ⟨attrs, accepted, -, valid, written⟩
  · rw [kept]
    exact priced
  · rw [written]
    show casing.upper (accepted.currency.getD workspace.line.currency) = _
    rw [(validateLine_ok valid).2.2, Option.getD_some, casing.upper_upper]

/-- One request gives the line what it takes over. -/
theorem stable_step (saved : workspace.Saved casing) (keeps : workspace.KeepsRows casing edit) :
    Stable casing (fun attrs => edit = .line attrs) workspace.line
      (workspace.step casing edit).line := by
  rcases (step_cases casing workspace edit).2 with kept | ⟨attrs, accepted, rfl, valid, written⟩
  · rw [kept]
    exact Stable.refl workspace.line
  · have ⟨collaboratorKept, serviceKept⟩ := keeps
    rw [written] at collaboratorKept serviceKept
    have ⟨isAccepted, _⟩ := accepted_eq valid collaboratorKept serviceKept
    have own {Value : Type} {field : LineAttrs → Option Value} {before after : Value}
        (supplied : Supplied (· = attrs) field before after) :
        Supplied (fun other => Edit.line attrs = .line other) field before after :=
      supplied.mono fun other same => congrArg Edit.line same.symm
    rw [written, isAccepted]
    constructor
    · rfl
    · exact own supplied_getD
    · exact own supplied_getD
    · exact own supplied_getD
    · apply own
      show Supplied _ _ workspace.line.currency
        (casing.upper (casing.upper (attrs.currency.getD workspace.line.currency)))
      rw [casing.upper_upper]
      cases named : attrs.currency with
      | none => exact Or.inl saved
      | some currency => exact Or.inr ⟨attrs, rfl, congrArg (Option.map casing.upper) named⟩

/-- Every step of a run gives the line only what its own request names. -/
theorem stable_steps (saved : workspace.Saved casing)
    (keeps : EveryStep (step casing) (KeepsRows casing) workspace edits) :
    EveryStep (step casing) (fun before edit => Stable casing (fun attrs => edit = .line attrs)
      before.line (before.step casing edit).line) workspace edits :=
  everyStep_guarded (Saved casing) (fun _ _ isSaved _ => isSaved.step)
    (fun _ _ => stable_step) saved keeps

theorem stable_run (saved : workspace.Saved casing)
    (keeps : EveryStep (step casing) (KeepsRows casing) workspace edits) :
    Stable casing (fun attrs => Edit.line attrs ∈ edits) workspace.line
      (run (step casing) workspace edits).line := by
  induction edits generalizing workspace with
  | nil => exact Stable.refl workspace.line
  | cons edit rest inductionHypothesis =>
      have first := stable_step saved keeps.1
      have others := inductionHypothesis saved.step keeps.2
      refine Stable.trans (first.mono fun attrs isLine => ?_) (others.mono fun attrs member => ?_)
      · rw [← isLine]
        exact List.mem_cons_self
      · exact List.mem_cons_of_mem edit member

/-- While no request leads the line to other rows, what it has taken over from
the catalogue changes only to values that a request on the line gives, and its
currency not at all when it is that of the deal. -/
theorem snapshot_stable (casing : Casing) (stored : Workspace) (edits : List Edit) :
    let start := { stored with line := stored.line.save casing }
    EveryStep (step casing) (KeepsRows casing) start edits →
      EveryStep (step casing) (fun before edit => Stable casing (fun attrs => edit = .line attrs)
        before.line (before.step casing edit).line) start edits ∧
      Stable casing (fun attrs => Edit.line attrs ∈ edits) start.line
        (run (step casing) start edits).line ∧
      (start.line.currency = casing.upper start.dealCurrency →
        (run (step casing) start edits).line.currency = start.line.currency) := by
  intro start keeps
  have saved : start.Saved casing := casing.upper_upper _
  refine ⟨stable_steps saved keeps, stable_run saved keeps, fun priced => ?_⟩
  have sameDeal : (run (step casing) start edits).dealCurrency = start.dealCurrency :=
    run_invariant (fun workspace => workspace.dealCurrency = start.dealCurrency)
      (fun workspace edit same => (step_cases casing workspace edit).1.trans same) rfl edits
  have isPriced : (run (step casing) start edits).Priced casing :=
    run_invariant (Priced casing) (fun _ _ => Priced.step) priced edits
  rw [isPriced, sameDeal, ← priced]

/-- A line for a logo, taken over from the catalogue. -/
def logo : Workspace where
  collaborators := [{ id := 1, organization := 1, name := "Kostas" }]
  services := [{ id := 2, organization := 1, collaborator := 1, name := "Logo", defaultCost := 5000 }]
  dealCurrency := "EUR"
  line := {
    id := 3
    organization := 1
    deal := 4
    collaborator := 1
    collaboratorService := some 2
    collaboratorName := "Kostas"
    serviceName := "Logo"
    unitCost := 5000
    currency := "EUR" }

/-- The catalogue moves on, and the line is sent again with its own ids. -/
def afterRename : List Edit :=
  [.collaborator 1 1 { name := some "Kostas Updated", isActive := some false },
    .service 1 2 { name := some "New logo", defaultCost := some 8000 },
    .line {
      collaborator := some 1
      collaboratorService := some (some 2)
      quantity := some 300
      status := some .paid }]

theorem snapshot_stable_logo :
    Stable Tenancy.asciiCasing (fun attrs => Edit.line attrs ∈ afterRename)
      (logo.line.save Tenancy.asciiCasing)
      (run (step Tenancy.asciiCasing) { logo with line := logo.line.save Tenancy.asciiCasing }
        afterRename).line :=
  (snapshot_stable Tenancy.asciiCasing logo afterRename (by decide +kernel)).2.1

end Workspace

end BubllioCrm.Costing
