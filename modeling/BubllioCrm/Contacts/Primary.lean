import BubllioCrm.Contacts.Requests
import Mathlib.Data.List.Pairwise

/-!
Owns when a request on contacts runs into the constraint on the primary contact
of a company, and that the constraint keeps one such contact at most.
-/

namespace BubllioCrm.Contacts

open BubllioCrm.Companies BubllioCrm.Foundations

variable {text related : Related} {contacts rows next : List Contact}
  {contact other saved : Contact} {attrs : ContactAttrs} {organization id now : Nat}
  {own : Option Contact} {request : Request}

/-! ### Tables that the constraints allow -/

theorem Contact.Clashes.symm {first second : Contact} (clashes : first.Clashes text second) :
    second.Clashes text first := by
  rcases clashes with sameId | ⟨sameOwner, first, second, sameEmail⟩ |
    ⟨sameCompany, first, second, firstActive, secondActive⟩
  · exact Or.inl sameId.symm
  · exact Or.inr (Or.inl ⟨sameOwner.symm, second, first, sameEmail.symm⟩)
  · exact Or.inr (Or.inr ⟨sameCompany.symm, second, first, secondActive, firstActive⟩)

/-- The ids are distinct and no two rows clash. -/
theorem admits_iff : Admits text contacts ↔
    (contacts.map Contact.id).Nodup ∧ ∀ first ∈ contacts, ∀ second ∈ contacts,
      first.id ≠ second.id → ¬ first.Clashes text second := by
  constructor
  · intro admits
    have keyed : (contacts.map Contact.id).Nodup := by
      refine List.pairwise_map.mpr (admits.imp ?_)
      intro first second apart sameId
      exact apart (Or.inl sameId)
    refine ⟨keyed, fun first isFirst second isSecond differ clashes => ?_⟩
    have symmetric : Std.Symm fun first second : Contact => ¬ first.Clashes text second :=
      ⟨fun _ _ apart clashes => apart clashes.symm⟩
    exact admits.forall isFirst isSecond (fun same => differ (congrArg _ same)) clashes
  · rintro ⟨keyed, apart⟩
    refine List.Nodup.pairwise_of_forall_ne (List.Nodup.of_map _ keyed) ?_
    intro first isFirst second isSecond differ
    apply apart first isFirst second isSecond
    intro sameId
    exact differ (List.inj_on_of_nodup_map keyed isFirst isSecond sameId)

theorem onePrimary_of_admits (admits : Admits text contacts) : OnePrimary contacts := by
  intro first isFirst second isSecond sameCompany firstPrimary secondPrimary
  obtain ⟨keyed, apart⟩ := admits_iff.mp admits
  by_cases sameId : first.id = second.id
  · exact List.inj_on_of_nodup_map keyed isFirst isSecond sameId
  · exact absurd
      (Or.inr (Or.inr ⟨sameCompany, firstPrimary.1, secondPrimary.1, firstPrimary.2,
        secondPrimary.2⟩))
      (apart first isFirst second isSecond sameId)

/-- A contact that gives way is as it was, or is not primary any more. -/
theorem mem_yieldPrimary (member : other ∈ yieldPrimary attrs contact contacts) :
    ∃ stored ∈ contacts, other = stored ∨
      attrs.isPrimary = some true ∧ stored.company = contact.company ∧
        other = { stored with isPrimary := false } := by
  unfold yieldPrimary at member
  split_ifs at member with names
  · obtain ⟨stored, isStored, ⟨⟨sameCompany, -⟩, same⟩ | ⟨-, same⟩⟩ := mem_updateWhere.mp member
    · exact ⟨stored, isStored, Or.inr ⟨names, sameCompany, same⟩⟩
    · exact ⟨stored, isStored, Or.inl same⟩
  · exact ⟨other, member, Or.inl rfl⟩

theorem ids_yieldPrimary :
    (yieldPrimary attrs contact contacts).map Contact.id = contacts.map Contact.id := by
  unfold yieldPrimary
  split_ifs with names
  · apply map_updateWhere
    exact fun _ => rfl
  · rfl

/-- A clash with a contact that gives way is one with the contact as it was. -/
theorem Contact.Clashes.of_demoted {stored : Contact}
    (clashes : saved.Clashes text { stored with isPrimary := false }) :
    saved.Clashes text stored := by
  rcases clashes with sameId | sameEmail | ⟨-, -, isPrimary, -⟩
  · exact Or.inl sameId
  · exact Or.inr (Or.inl sameEmail)
  · cases isPrimary

theorem clashes_of_yieldPrimary (member : other ∈ yieldPrimary attrs contact contacts)
    (clashes : saved.Clashes text other) :
    ∃ stored ∈ contacts, stored.id = other.id ∧ saved.Clashes text stored := by
  obtain ⟨stored, isStored, same | ⟨-, -, same⟩⟩ := mem_yieldPrimary member
  · exact ⟨stored, isStored, by rw [same], same ▸ clashes⟩
  · rw [same] at clashes
    exact ⟨stored, isStored, by rw [same], clashes.of_demoted⟩

theorem admits_yieldPrimary (admits : Admits text contacts) :
    Admits text (yieldPrimary attrs contact contacts) := by
  obtain ⟨keyed, apart⟩ := admits_iff.mp admits
  refine admits_iff.mpr ⟨?_, ?_⟩
  · rw [ids_yieldPrimary]
    exact keyed
  intro first isFirst second isSecond differ clashes
  obtain ⟨storedSecond, isStoredSecond, secondId, withSecond⟩ :=
    clashes_of_yieldPrimary isSecond clashes
  obtain ⟨storedFirst, isStoredFirst, firstId, withFirst⟩ :=
    clashes_of_yieldPrimary isFirst withSecond.symm
  refine apart storedSecond isStoredSecond storedFirst isStoredFirst ?_ withFirst
  rw [secondId, firstId]
  exact differ.symm

/-- A row may replace the one with its id if it clashes with no other. -/
theorem admits_replace (admits : Admits text rows) (present : saved.id ∈ rows.map Contact.id) :
    Admits text (updateWhere (·.id = saved.id) (fun _ => saved) rows) ↔
      ∀ other ∈ rows, other.id ≠ saved.id → ¬ saved.Clashes text other := by
  obtain ⟨keyed, apart⟩ := admits_iff.mp admits
  have sameIds : (updateWhere (·.id = saved.id) (fun _ => saved) rows).map Contact.id =
      rows.map Contact.id := map_updateWhere_of_mem fun row _ isSaved => isSaved.symm
  constructor
  · intro allowed other stored differ
    obtain ⟨row, isRow, sameId⟩ := List.mem_map.mp present
    apply (admits_iff.mp allowed).2 saved _ other _ (Ne.symm differ)
    · exact mem_updateWhere_of_selected isRow sameId
    · exact mem_updateWhere_of_not_selected stored differ
  · intro free
    refine admits_iff.mpr ⟨sameIds ▸ keyed, ?_⟩
    intro first isFirst second isSecond differ clashes
    obtain ⟨oldFirst, firstStored, ⟨firstHit, rfl⟩ | ⟨firstMiss, rfl⟩⟩ := mem_updateWhere.mp isFirst
    · obtain ⟨oldSecond, secondStored, ⟨-, rfl⟩ | ⟨secondMiss, rfl⟩⟩ :=
        mem_updateWhere.mp isSecond
      · exact differ rfl
      · exact free second secondStored secondMiss clashes
    · obtain ⟨oldSecond, secondStored, ⟨-, rfl⟩ | ⟨secondMiss, rfl⟩⟩ :=
        mem_updateWhere.mp isSecond
      · exact free first firstStored firstMiss clashes.symm
      · exact apart first firstStored second secondStored differ clashes

/-! ### Writes -/

theorem mem_of_load (isLoaded : load organization id contacts = some contact) :
    contact ∈ contacts ∧ contact.id = id ∧ contact.organization = organization := by
  have here : contact.id = id ∧ contact.organization = organization := by
    simpa using List.find?_some isLoaded
  exact ⟨List.mem_of_find?_eq_some isLoaded, here⟩

/-- A contact that a clash sets aside has the email, or both are active primary
contacts of one company. -/
theorem Contact.Clashes.cases (differ : other.id ≠ saved.id)
    (clashes : saved.Clashes text other) :
    saved.email ≠ "" ∧ other.organization = saved.organization ∧
        text.lower other.email = text.lower saved.email ∨
      other.company = saved.company ∧ saved.IsActivePrimary ∧ other.IsActivePrimary := by
  rcases clashes with sameId | ⟨sameOwner, named, -, sameEmail⟩ |
    ⟨sameCompany, first, second, firstActive, secondActive⟩
  · exact absurd sameId.symm differ
  · exact Or.inl ⟨named, sameOwner.symm, sameEmail.symm⟩
  · exact Or.inr ⟨sameCompany.symm, ⟨first, firstActive⟩, second, secondActive⟩

/-- A contact whose email another row has is refused for its email. -/
theorem emailTaken_of_yieldPrimary (member : other ∈ yieldPrimary attrs saved contacts)
    (differ : ∀ stored ∈ own, other.id ≠ stored.id) (named : saved.email ≠ "")
    (owner : other.organization = organization)
    (sameEmail : text.lower other.email = text.lower saved.email) :
    EmailTaken text organization own saved.email contacts := by
  obtain ⟨stored, isStored, rfl | ⟨-, -, rfl⟩⟩ := mem_yieldPrimary member
  · exact ⟨named, other, isStored, owner, differ, sameEmail⟩
  · exact ⟨named, stored, isStored, owner, differ, sameEmail⟩

/-- The contacts that have given way leave no other active primary contact. -/
theorem not_activePrimary_of_yieldPrimary (names : attrs.isPrimary = some true)
    (member : other ∈ yieldPrimary attrs saved contacts) (differ : other.id ≠ saved.id)
    (sameCompany : other.company = saved.company) : ¬ other.IsActivePrimary := by
  intro isPrimary
  unfold yieldPrimary at member
  rw [if_pos names] at member
  obtain ⟨stored, -, ⟨-, rfl⟩ | ⟨miss, rfl⟩⟩ := mem_updateWhere.mp member
  · cases isPrimary.1
  · exact miss ⟨sameCompany, isPrimary.1, differ⟩

/-- When a PATCH request can save the contact that it has set. -/
theorem admits_update_iff (admits : Admits text contacts) (present : contact ∈ contacts)
    (sameId : saved.id = contact.id) (owner : saved.organization = organization) :
    Admits text (update attrs saved contacts) ∨
        EmailTaken text organization (some contact) saved.email contacts ↔
      attrs.isPrimary = some true ∨ PrimaryFree saved contacts ∨
        EmailTaken text organization (some contact) saved.email contacts := by
  have base : Admits text (yieldPrimary attrs saved contacts) := admits_yieldPrimary admits
  have listed : saved.id ∈ (yieldPrimary attrs saved contacts).map Contact.id := by
    rw [ids_yieldPrimary, sameId]
    exact List.mem_map_of_mem present
  unfold update
  rw [admits_replace base listed]
  constructor
  · rintro (free | taken)
    · by_cases names : attrs.isPrimary = some true
      · exact Or.inl names
      · right
        left
        intro isPrimary other stored differ sameCompany otherPrimary
        have same : yieldPrimary attrs saved contacts = contacts := if_neg names
        refine free other (same.symm ▸ stored) differ ?_
        exact Or.inr (Or.inr ⟨sameCompany.symm, isPrimary.1, otherPrimary.1, isPrimary.2,
          otherPrimary.2⟩)
    · exact Or.inr (Or.inr taken)
  · intro undisputed
    by_cases taken : EmailTaken text organization (some contact) saved.email contacts
    · exact Or.inr taken
    left
    intro other member differ clashes
    rcases clashes.cases differ with ⟨named, sameOwner, sameEmail⟩ |
      ⟨sameCompany, isPrimary, otherPrimary⟩
    · refine taken (emailTaken_of_yieldPrimary member ?_ named (sameOwner.trans owner) sameEmail)
      rintro _ ⟨⟩
      exact sameId ▸ differ
    · rcases undisputed with names | free | isTaken
      · exact not_activePrimary_of_yieldPrimary names member differ sameCompany otherPrimary
      · obtain ⟨stored, isStored, rfl | ⟨-, -, rfl⟩⟩ := mem_yieldPrimary member
        · exact free isPrimary other isStored differ sameCompany otherPrimary
        · cases otherPrimary.1
      · exact taken isTaken

/-- The row of a create request. -/
theorem toRow_columns (isRow : attrs.toRow id organization = some contact) :
    contact.id = id ∧ contact.organization = organization ∧
      contact.isPrimary = attrs.isPrimary.getD false := by
  unfold ContactAttrs.toRow at isRow
  cases company : attrs.company with
  | none => simp [company] at isRow
  | some owner =>
      cases firstName : attrs.firstName with
      | none => simp [company, firstName] at isRow
      | some name =>
          simp only [company, firstName, Option.bind_eq_bind, Option.bind_some, Option.pure_def,
            Option.some.injEq] at isRow
          subst isRow
          exact ⟨rfl, rfl, rfl⟩

/-- When a create request can insert its row: with a new id. -/
theorem admits_create_iff (admits : Admits text contacts)
    (isRow : attrs.toRow id organization = some contact) :
    Admits text (create attrs contact contacts) ∨
        EmailTaken text organization none contact.email contacts ↔
      id ∉ contacts.map Contact.id ∨
        EmailTaken text organization none contact.email contacts := by
  obtain ⟨isId, owner, isPrimary⟩ := toRow_columns isRow
  have base : Admits text (yieldPrimary attrs contact contacts) := admits_yieldPrimary admits
  unfold create Admits
  rw [List.pairwise_append]
  constructor
  · rintro (⟨-, -, free⟩ | taken)
    · left
      intro listed
      rw [← ids_yieldPrimary, ← isId] at listed
      obtain ⟨other, member, sameId⟩ := List.mem_map.mp listed
      exact free other member contact (List.mem_singleton_self _) (Or.inl sameId)
    · exact Or.inr taken
  · intro undisputed
    by_cases taken : EmailTaken text organization none contact.email contacts
    · exact Or.inr taken
    have new := undisputed.resolve_right taken
    left
    refine ⟨base, List.pairwise_singleton _ _, fun other member saved isSaved clashes => ?_⟩
    rw [List.mem_singleton.mp isSaved] at clashes
    have differ : other.id ≠ contact.id := by
      intro sameId
      apply new
      rw [← ids_yieldPrimary, ← isId, ← sameId]
      exact List.mem_map_of_mem member
    rcases clashes.symm.cases differ with ⟨named, sameOwner, sameEmail⟩ |
      ⟨sameCompany, primary, otherPrimary⟩
    · exact taken (emailTaken_of_yieldPrimary member nofun named (sameOwner.trans owner) sameEmail)
    · have names : attrs.isPrimary = some true := by
        have isTrue := isPrimary.symm.trans primary.1
        cases named : attrs.isPrimary with
        | none => simp [named] at isTrue
        | some value => simpa [named] using isTrue
      exact not_activePrimary_of_yieldPrimary names member differ sameCompany otherPrimary

/-- A loaded contact is written by its id. -/
theorem saveFields_eq {change : Contact → Contact} (admits : Admits text contacts)
    (isLoaded : load organization id contacts = some contact)
    (keeps : (change contact).id = contact.id) :
    saveFields id change contacts =
      updateWhere (·.id = (change contact).id) (fun _ => change contact) contacts := by
  obtain ⟨stored, isId, -⟩ := mem_of_load isLoaded
  have keyed := (admits_iff.mp admits).1
  unfold saveFields updateWhere
  apply List.map_congr_left
  intro row isRow
  rw [keeps, isId]
  by_cases hit : row.id = id
  · rw [if_pos hit, if_pos hit,
      List.inj_on_of_nodup_map keyed isRow stored (hit.trans isId.symm)]
  · rw [if_neg hit, if_neg hit]

theorem load_id_mem (isLoaded : load organization id contacts = some contact) :
    contact.id ∈ contacts.map Contact.id :=
  List.mem_map_of_mem (mem_of_load isLoaded).1

/-- A contact that keeps its email clashes with no other for it. -/
theorem free_of_same_email (admits : Admits text contacts) (present : contact ∈ contacts)
    (sameId : saved.id = contact.id) (sameOwner : saved.organization = contact.organization)
    (sameEmail : saved.email = contact.email) :
    (∀ other ∈ contacts, other.id ≠ saved.id → ¬ saved.Clashes text other) ↔
      PrimaryFree saved contacts := by
  constructor
  · intro free isPrimary other stored differ sameCompany otherPrimary
    exact free other stored differ
      (Or.inr (Or.inr ⟨sameCompany.symm, isPrimary.1, otherPrimary.1, isPrimary.2, otherPrimary.2⟩))
  · intro free other stored differ clashes
    rcases clashes with same | ⟨owner, named, otherNamed, alike⟩ |
      ⟨sameCompany, first, second, firstActive, secondActive⟩
    · exact differ same.symm
    · rw [sameOwner] at owner
      rw [sameEmail] at named alike
      exact (admits_iff.mp admits).2 contact present other stored
        (by rw [← sameId]; exact differ.symm) (Or.inr (Or.inl ⟨owner, named, otherNamed, alike⟩))
    · exact free ⟨first, firstActive⟩ other stored differ sameCompany.symm ⟨second, secondActive⟩

/-! ### Answers -/

theorem store_handled {otherwise : Answer} :
    (store text contacts next otherwise).2 ≠ .integrityError ↔
      Admits text next ∨ otherwise ≠ .integrityError := by
  unfold store
  by_cases admits : Admits text next
  · rw [if_pos admits]
    exact iff_of_true nofun (Or.inl admits)
  · rw [if_neg admits]
    exact ⟨Or.inr, fun either => either.resolve_left admits⟩

theorem store_unchanged {otherwise : Answer}
    (failed : (store text contacts next otherwise).2 ≠ .success) :
    (store text contacts next otherwise).1 = contacts := by
  unfold store at failed ⊢
  split_ifs at failed ⊢ with admits
  · exact absurd rfl failed
  · rfl

theorem store_admits {otherwise : Answer} (admits : Admits text contacts) :
    Admits text (store text contacts next otherwise).1 := by
  unfold store
  split_ifs with allowed
  · exact allowed
  · exact admits

theorem translate_handled {email : String} :
    translate text organization own email contacts ≠ .integrityError ↔
      EmailTaken text organization own email contacts := by
  unfold translate
  by_cases taken : EmailTaken text organization own email contacts
  · rw [if_pos taken]
    exact iff_of_true nofun taken
  · rw [if_neg taken]
    exact iff_of_false (not_not.mpr rfl) taken

/-- A create request is handled exactly when it is undisputed. -/
theorem create_handled (admits : Admits text contacts) :
    (execute text contacts (.create organization id attrs related)).2 ≠ .integrityError ↔
      Undisputed text contacts (.create organization id attrs related) := by
  unfold execute Undisputed
  dsimp only
  cases isRow : attrs.toRow id organization with
  | none => exact iff_of_true nofun nofun
  | some contact =>
      dsimp only
      cases valid : validate related contacts organization none attrs with
      | error errors => exact iff_of_true nofun nofun
      | ok accepted =>
          obtain rfl := validate_ok valid
          dsimp only
          rw [store_handled, translate_handled, admits_create_iff admits isRow]
          constructor
          · rintro undisputed _ ⟨⟩ -
            exact undisputed
          · exact fun undisputed => undisputed contact rfl rfl

theorem patch_handled (admits : Admits text contacts) :
    (execute text contacts (.patch organization id attrs related)).2 ≠ .integrityError ↔
      Undisputed text contacts (.patch organization id attrs related) := by
  unfold execute Undisputed
  dsimp only
  cases isLoaded : load organization id contacts with
  | none => exact iff_of_true nofun nofun
  | some contact =>
      dsimp only
      cases valid : validate related contacts organization (some contact) attrs with
      | error errors =>
          refine iff_of_true nofun ?_
          rintro _ ⟨⟩ accepted
          cases valid.symm.trans accepted
      | ok accepted =>
          obtain rfl := validate_ok valid
          obtain ⟨stored, -, owner⟩ := mem_of_load isLoaded
          dsimp only
          have saves := @admits_update_iff text contacts contact (accepted.setOn contact) accepted
            organization admits stored rfl owner
          rw [store_handled, translate_handled, saves]
          constructor
          · rintro undisputed _ ⟨⟩ -
            exact undisputed
          · exact fun undisputed => undisputed contact rfl valid

/-- When a loaded contact can be written by name, the email left alone. -/
theorem admits_saveFields_iff {change : Contact → Contact} (admits : Admits text contacts)
    (isLoaded : load organization id contacts = some contact)
    (sameId : (change contact).id = contact.id)
    (sameOwner : (change contact).organization = contact.organization)
    (sameEmail : (change contact).email = contact.email) :
    Admits text (saveFields id change contacts) ↔ PrimaryFree (change contact) contacts := by
  have listed : (change contact).id ∈ contacts.map Contact.id := by
    rw [sameId]
    exact load_id_mem isLoaded
  rw [saveFields_eq admits isLoaded sameId, admits_replace admits listed]
  exact free_of_same_email admits (mem_of_load isLoaded).1 sameId sameOwner sameEmail

/-- An active contact that is stored is primary alone. -/
theorem primaryFree_of_admits (admits : Admits text contacts) (stored : contact ∈ contacts) :
    PrimaryFree contact contacts := by
  intro isPrimary other isOther differ sameCompany otherPrimary
  exact differ (congrArg Contact.id
    (onePrimary_of_admits admits other isOther contact stored sameCompany otherPrimary isPrimary))

theorem restore_handled (admits : Admits text contacts) :
    (execute text contacts (.restore organization id)).2 ≠ .integrityError ↔
      Undisputed text contacts (.restore organization id) := by
  unfold execute Undisputed
  dsimp only
  cases isLoaded : load organization id contacts with
  | none => exact iff_of_true nofun nofun
  | some contact =>
      have restores : Admits text
            (saveFields id (fun row => { row with archivedAt := none }) contacts) ↔
          PrimaryFree { contact with archivedAt := none } contacts :=
        admits_saveFields_iff admits isLoaded rfl rfl rfl
      dsimp only
      split_ifs with active
      · refine iff_of_true nofun ?_
        rintro _ ⟨⟩
        have same : { contact with archivedAt := none } = contact := by
          rw [Option.isNone_iff_eq_none] at active
          rw [← active]
        rw [same]
        exact primaryFree_of_admits admits (mem_of_load isLoaded).1
      · rw [store_handled, restores]
        constructor
        · rintro (isFree | failed) _ ⟨⟩
          · exact isFree
          · exact absurd rfl failed
        · exact fun isFree => Or.inl (isFree contact rfl)

/-- An archived contact is not primary, so it clashes with none. -/
theorem archive_handled (admits : Admits text contacts) :
    (execute text contacts (.archive organization id now)).2 ≠ .integrityError := by
  unfold execute
  dsimp only
  cases isLoaded : load organization id contacts with
  | none => exact nofun
  | some contact =>
      have archives : Admits text (saveFields id
            (fun row => { row with archivedAt := some now, isPrimary := false }) contacts) ↔
          PrimaryFree { contact with archivedAt := some now, isPrimary := false } contacts :=
        admits_saveFields_iff admits isLoaded rfl rfl rfl
      dsimp only
      split_ifs with archived
      · exact nofun
      · rw [store_handled, archives]
        left
        intro isPrimary
        cases isPrimary.1

theorem handled_iff (admits : Admits text contacts) (request : Request) :
    (execute text contacts request).2 ≠ .integrityError ↔ Undisputed text contacts request := by
  cases request with
  | create organization id attrs related => exact create_handled admits
  | patch organization id attrs related => exact patch_handled admits
  | archive organization id now => exact iff_of_true (archive_handled admits) trivial
  | restore organization id => exact restore_handled admits
  | delete organization id =>
      refine iff_of_true ?_ trivial
      unfold execute
      dsimp only
      cases load organization id contacts <;> exact nofun

/-- A request answers without a write, has its write checked by the constraints,
or takes rows away. -/
theorem execute_cases (text : Related) (contacts : List Contact) (request : Request) :
    (∃ answer, execute text contacts request = (contacts, answer)) ∨
      (∃ next otherwise, execute text contacts request = store text contacts next otherwise) ∨
      ∃ next, next.Sublist contacts ∧ execute text contacts request = (next, .success) := by
  unfold execute
  cases request with
  | create organization id attrs related =>
      dsimp only
      cases attrs.toRow id organization with
      | none => exact Or.inl ⟨_, rfl⟩
      | some contact =>
          dsimp only
          cases validate related contacts organization none attrs with
          | error errors => exact Or.inl ⟨_, rfl⟩
          | ok accepted => exact Or.inr (Or.inl ⟨_, _, rfl⟩)
  | patch organization id attrs related =>
      dsimp only
      cases load organization id contacts with
      | none => exact Or.inl ⟨_, rfl⟩
      | some contact =>
          dsimp only
          cases validate related contacts organization (some contact) attrs with
          | error errors => exact Or.inl ⟨_, rfl⟩
          | ok accepted => exact Or.inr (Or.inl ⟨_, _, rfl⟩)
  | archive organization id now =>
      dsimp only
      cases load organization id contacts with
      | none => exact Or.inl ⟨_, rfl⟩
      | some contact =>
          dsimp only
          split_ifs with archived
          · exact Or.inl ⟨_, rfl⟩
          · exact Or.inr (Or.inl ⟨_, _, rfl⟩)
  | restore organization id =>
      dsimp only
      cases load organization id contacts with
      | none => exact Or.inl ⟨_, rfl⟩
      | some contact =>
          dsimp only
          split_ifs with active
          · exact Or.inl ⟨_, rfl⟩
          · exact Or.inr (Or.inl ⟨_, _, rfl⟩)
  | delete organization id =>
      dsimp only
      cases load organization id contacts with
      | none => exact Or.inl ⟨_, rfl⟩
      | some contact => exact Or.inr (Or.inr ⟨_, List.filter_sublist, rfl⟩)

/-- A request that does not succeed changes nothing. -/
theorem unchanged_of_failure
    (failed : (execute text contacts request).2 ≠ .success) :
    step text contacts request = contacts := by
  unfold step
  rcases execute_cases text contacts request with ⟨answer, same⟩ | ⟨next, otherwise, same⟩ |
    ⟨next, -, same⟩
  · rw [same]
  · rw [same] at failed ⊢
    exact store_unchanged failed
  · rw [same] at failed
    exact absurd rfl failed

/-- The database keeps the constraints whatever is requested. -/
theorem step_admits (admits : Admits text contacts) (request : Request) :
    Admits text (step text contacts request) := by
  unfold step
  rcases execute_cases text contacts request with ⟨answer, same⟩ | ⟨next, otherwise, same⟩ |
    ⟨next, fewer, same⟩
  · rw [same]
    exact admits
  · rw [same]
    exact store_admits admits
  · rw [same]
    exact List.Pairwise.sublist fewer admits

theorem answered_iff (admits : Admits text contacts) (request : Request) :
    Answered text contacts request ↔ Undisputed text contacts request := by
  rw [← handled_iff admits request]
  exact ⟨fun answered => answered.handled, fun handled => ⟨handled, unchanged_of_failure⟩⟩

/-- In every run of requests every company has one active primary contact at
most, and every request succeeds or is rejected without a trace exactly when all
requests of the run are undisputed. -/
theorem one_primary_iff (text : Related) (requests : List Request) :
    Always (step text) OnePrimary [] requests ∧
        EveryStep (step text) (Answered text) [] requests ↔
      EveryStep (step text) (Undisputed text) [] requests := by
  have start : Admits text [] := List.Pairwise.nil
  have admitted := always_invariant (Admits text)
    (fun _ request admits => step_admits admits request) start requests
  rw [everyStep_congr (Admits text) (fun _ request admits => step_admits admits request)
    (fun _ request admits => answered_iff admits request) start requests]
  exact and_iff_right (admitted.imp fun _ => onePrimary_of_admits)

/-- Text that is compared as it is, and a workspace of whose companies everybody
may choose. -/
def plainText : Related where
  companyOrganization := fun _ => some 1
  contactOrganization := fun _ => none
  contactCompany := fun _ => none
  dealOrganization := fun _ => none
  dealCompany := fun _ => none
  catalogItemOrganization := fun _ => none
  isMember := fun _ _ => true
  hasCostLines := fun _ => false
  upper := fun word => word
  iexact := fun first second => first = second
  lower := fun word => word

/-- An archived contact of company 1 is named primary, and the primary contact of
company 2 moves in. -/
def movedIn : List Request := [
  .create 1 10 { company := some 1, firstName := some "Ada" } plainText,
  .archive 1 10 100,
  .patch 1 10 { isPrimary := some true } plainText,
  .create 1 11 { company := some 2, firstName := some "Grace", isPrimary := some true } plainText,
  .patch 1 11 { company := some 1 } plainText]

/-- The first contact can not be restored then. -/
theorem restore_breaks_constraint :
    ¬ ∀ requests : List Request, EveryStep (step plainText) (Answered plainText) [] requests := by
  intro always
  have answered : Answered plainText (run (step plainText) [] movedIn) (.restore 1 10) :=
    (always (movedIn ++ [.restore 1 10])).at_split
  exact answered.handled (by decide +kernel)

end BubllioCrm.Contacts
