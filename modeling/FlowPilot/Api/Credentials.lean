import FlowPilot.Api.StoredDefinitions
import FlowPilot.Lib.Table
import FlowPilot.Lib.Unwinding

/-!
# Credentials

`CredentialsService`: the secrets of a workspace are stored encrypted, listed
without their values, and handed out to other services only. A request is
one statement on the table, so the runs of `credentialStep` are all
interleavings of requests.

Two results. The table implements what its history says
(`credentials_meet_history`): a lookup returns the value that was created
under that id, in that workspace only, until it is removed. And what the
members of a workspace see depends on their own requests alone, without the
secrets in them (`credentials_confidential`).

The cipher is a parameter. The foreign keys of the table are left out.
-/

namespace FlowPilot.Api

/-! ## `createCredentialSchema` -/

inductive CredentialType where
  | openrouter
  | ollama
  | openai
  | claude
  | gemini
deriving DecidableEq, Repr

def CredentialType.literal : CredentialType → String
  | .openrouter => "openrouter"
  | .ollama => "ollama"
  | .openai => "openai"
  | .claude => "claude"
  | .gemini => "gemini"

inductive CredentialKind where
  | llm
  | database
  | search
  | webhook
  | email
deriving DecidableEq, Repr

def CredentialKind.literal : CredentialKind → String
  | .llm => "llm"
  | .database => "database"
  | .search => "search"
  | .webhook => "webhook"
  | .email => "email"

def defaultCapabilitiesByKind : CredentialKind → List String
  | .llm => ["llm.chat", "llm.structured_output"]
  | .database => ["db.query"]
  | .search => ["search.web"]
  | .webhook => ["webhook.invoke"]
  | .email => ["email.send"]

structure CreateCredentialDto where
  name : BoundedString 1 120
  type : CredentialType
  kind : CredentialKind
  capabilities : List String
  value : BoundedString 1 10000
  capabilities_ne_nil : capabilities ≠ []

/-- The `transform`: no capabilities are the default ones. -/
def CreateCredentialDto.withDefaults (name : BoundedString 1 120) (type : CredentialType)
    (kind : CredentialKind)
    (capabilities : Option { items : List (BoundedString 1 120) // 0 ≤ items.length
      ∧ items.length ≤ 20 }) (value : BoundedString 1 10000) : CreateCredentialDto :=
  match h : (capabilities.map fun items => items.val.map (·.val)).getD [] with
  | [] => ⟨name, type, kind, defaultCapabilitiesByKind kind, value, by cases kind <;> decide⟩
  | first :: rest => ⟨name, type, kind, first :: rest, value, by simp⟩

open Schema in
def createCredentialSchema : Schema CreateCredentialDto :=
  strictObject ["name", "type", "kind", "capabilities", "value"] fun fields =>
    CreateCredentialDto.withDefaults
      <$> field fields "name" (boundedString 1 120)
      <*> field fields "type" (enumOf [("openrouter", .openrouter), ("ollama", .ollama),
        ("openai", .openai), ("claude", .claude), ("gemini", .gemini)])
      <*> field fields "kind" (default .llm (enumOf [("llm", .llm), ("database", .database),
        ("search", .search), ("webhook", .webhook), ("email", .email)]))
      <*> field fields "capabilities" (optional (boundedArray (boundedString 1 120) 0 20))
      <*> field fields "value" (boundedString 1 10000)

/-! ## The table -/

/-- A row; the binary columns are the Base64 texts. -/
structure IntegrationCredential where
  id : String
  workspaceId : String
  createdByUserId : Option String
  name : String
  type : String
  kind : String
  capabilities : List String
  encryptedValue : String
  iv : String
  authTag : String
  createdAt : Int
  updatedAt : Int
  lastUsedAt : Option Int
deriving DecidableEq, Repr

/-- `aes-256-gcm` under the key derived from a text; `none` is a thrown
error. What was encrypted can be decrypted. -/
class Aes256Gcm where
  encrypt : (key iv value : String) → String × String
  decrypt : (key iv encryptedValue authTag : String) → Option String
  decrypt_encrypt : ∀ key iv value,
    decrypt key iv (encrypt key iv value).1 (encrypt key iv value).2 = some value

/-- The order of texts in the database. -/
structure Collation where
  le : String → String → Prop
  decidable : DecidableRel le
  total : ∀ a b, le a b ∨ le b a
  trans : ∀ a b c, le a b → le b c → le a c
  antisymm : ∀ a b, le a b → le b a → a = b

/-- What the database and the random source add to a request. -/
structure CredentialContext where
  now : Int
  uuid : String
  iv : String

structure CredentialResponse where
  id : String
  workspaceId : String
  name : String
  type : String
  kind : String
  capabilities : List String
  lastUsedAt : Option Int
  createdAt : Int
  updatedAt : Int
deriving DecidableEq, Repr

/-- What `findSecret` returns. -/
structure CredentialSecretResponse where
  id : String
  workspaceId : String
  type : String
  kind : String
  capabilities : List String
  value : String
deriving DecidableEq, Repr

def toCredentialResponse (credential : IntegrationCredential) : CredentialResponse where
  id := credential.id
  workspaceId := credential.workspaceId
  name := credential.name
  type := credential.type
  kind := credential.kind
  capabilities := credential.capabilities
  lastUsedAt := credential.lastUsedAt
  createdAt := credential.createdAt
  updatedAt := credential.updatedAt

/-! ## `CredentialsService` -/

/-- A request that passed its guard. -/
inductive CredentialRequest where
  | create (workspaceId actorUserId : String) (dto : CreateCredentialDto)
  | findAllForWorkspace (workspaceId : String)
  | remove (workspaceId credentialId : String)
  | findSecret (workspaceId credentialId : String)

inductive CredentialAnswer where
  | credential (response : CredentialResponse)
  | credentials (responses : List CredentialResponse)
  | deleted (id : String)
  | secret (response : CredentialSecretResponse)
deriving DecidableEq, Repr

structure CredentialAction where
  ctx : CredentialContext
  request : CredentialRequest

abbrev CredentialTable := List IntegrationCredential

namespace CredentialsService

section

variable [Aes256Gcm] (key : String) (collation : Collation) (ctx : CredentialContext)
  (rows : CredentialTable)

/-- The row of `integrationCredential.create`, with `encryptCredential`. -/
def newCredential (workspaceId actorUserId : String) (dto : CreateCredentialDto) :
    IntegrationCredential where
  id := ctx.uuid
  workspaceId
  createdByUserId := some actorUserId
  name := dto.name.val
  type := dto.type.literal
  kind := dto.kind.literal
  capabilities := dto.capabilities
  encryptedValue := (Aes256Gcm.encrypt key ctx.iv dto.value.val).1
  iv := ctx.iv
  authTag := (Aes256Gcm.encrypt key ctx.iv dto.value.val).2
  createdAt := ctx.now
  updatedAt := ctx.now
  lastUsedAt := none

def decryptCredential (row : IntegrationCredential) : Option String :=
  Aes256Gcm.decrypt key row.iv row.encryptedValue row.authTag

/-- The row breaks a unique constraint. -/
def Taken (row : IntegrationCredential) : Prop :=
  ∃ other ∈ rows, other.id = row.id
    ∨ other.workspaceId = row.workspaceId ∧ other.type = row.type ∧ other.name = row.name

instance (row : IntegrationCredential) : Decidable (Taken rows row) :=
  inferInstanceAs (Decidable (∃ other ∈ rows, _))

/-- A `P2002` becomes a conflict, whichever constraint it is about. -/
def create (workspaceId actorUserId : String) (dto : CreateCredentialDto) :
    Except ApiError CredentialAnswer × CredentialTable :=
  let row := newCredential key ctx workspaceId actorUserId dto
  if Taken rows row then
    (.error (.conflictException "Credential name already exists for this credential type"), rows)
  else (.ok (.credential (toCredentialResponse row)), rows ++ [row])

/-- `orderBy: [{ type: "asc" }, { name: "asc" }]`. -/
def ListedBefore (a b : CredentialResponse) : Prop :=
  if a.type = b.type then collation.le a.name b.name else collation.le a.type b.type

instance : DecidableRel (ListedBefore collation) := fun a b =>
  have := collation.decidable
  inferInstanceAs (Decidable (if a.type = b.type then _ else _))

/-- `integrationCredential.findMany({ where: { workspaceId }, orderBy })`. -/
def findMany (workspaceId : String) : List IntegrationCredential :=
  (rows.filter (·.workspaceId = workspaceId)).insertionSort fun a b =>
    ListedBefore collation (toCredentialResponse a) (toCredentialResponse b)

def findAllForWorkspace (workspaceId : String) : Except ApiError CredentialAnswer :=
  .ok (.credentials ((findMany collation rows workspaceId).map toCredentialResponse))

/-- The rows that `deleteMany` and `findFirst` look for. -/
def IsCredential (workspaceId credentialId : String) (row : IntegrationCredential) : Bool :=
  decide (row.id = credentialId) && decide (row.workspaceId = workspaceId)

def remove (workspaceId credentialId : String) :
    Except ApiError CredentialAnswer × CredentialTable :=
  if (rows.filter (IsCredential workspaceId credentialId)).length = 0 then
    (.error (.notFoundException "Credential not found"), rows)
  else
    (.ok (.deleted credentialId), rows.filter fun row => !IsCredential workspaceId credentialId row)

def findSecret (workspaceId credentialId : String) : Except ApiError CredentialAnswer :=
  match rows.find? (IsCredential workspaceId credentialId) with
  | none => .error (.notFoundException "Credential not found")
  | some credential =>
      match decryptCredential key credential with
      | some value => .ok (.secret
          { id := credential.id, workspaceId := credential.workspaceId, type := credential.type
            kind := credential.kind, capabilities := credential.capabilities, value })
      | none => .error (.error "Unsupported state or unable to authenticate data")

end

end CredentialsService

open CredentialsService in
/-- One request. -/
def credentialStep [Aes256Gcm] (key : String) (collation : Collation) (rows : CredentialTable)
    (action : CredentialAction) : Except ApiError CredentialAnswer × CredentialTable :=
  match action.request with
  | .create workspaceId actorUserId dto =>
      CredentialsService.create key action.ctx rows workspaceId actorUserId dto
  | .findAllForWorkspace workspaceId => (findAllForWorkspace collation rows workspaceId, rows)
  | .remove workspaceId credentialId => remove rows workspaceId credentialId
  | .findSecret workspaceId credentialId => (findSecret key rows workspaceId credentialId, rows)

/-! ### An instance -/

/-- A cipher that only has to be undone. -/
@[reducible] def Aes256Gcm.plain : Aes256Gcm where
  encrypt _ _ value := (value, "")
  decrypt _ _ encryptedValue _ := some encryptedValue
  decrypt_encrypt _ _ _ := rfl

/-- The order of the code points. -/
def Collation.binary : Collation where
  le a b := a ≤ b
  decidable := inferInstance
  total _ _ := String.le_total _ _
  trans _ _ _ := String.le_trans
  antisymm _ _ := String.le_antisymm

def openAiCredential (value : BoundedString 1 10000) : CreateCredentialDto where
  name := ⟨"key", by decide⟩
  type := .openai
  kind := .llm
  capabilities := ["llm.chat"]
  value
  capabilities_ne_nil := by simp

/-! ## What the history says -/

/-- A request with its answer. -/
abbrev CredentialEntry := CredentialAction × Except ApiError CredentialAnswer

/-- The credentials by workspace and id. -/
abbrev StoredCredentials := String → String → Option CreateCredentialDto

/-- What is stored after one more request: a creation stores its body under
the id it returns, a removal drops it. -/
def StoredCredentials.record (stored : StoredCredentials) : CredentialEntry → StoredCredentials
  | (⟨_, .create workspaceId _ dto⟩, .ok (.credential response)), w, id =>
      if w = workspaceId ∧ id = response.id then some dto else stored w id
  | (⟨_, .remove workspaceId credentialId⟩, .ok _), w, id =>
      if w = workspaceId ∧ id = credentialId then none else stored w id
  | _, w, id => stored w id

/-- What a history stores. -/
def storedAfter (history : List CredentialEntry) : StoredCredentials :=
  history.foldl StoredCredentials.record fun _ _ => none

/-- What is returned of a credential. -/
def CreateCredentialDto.secret (dto : CreateCredentialDto) (workspaceId id : String) :
    CredentialSecretResponse where
  id
  workspaceId
  type := dto.type.literal
  kind := dto.kind.literal
  capabilities := dto.capabilities
  value := dto.value.val

section

variable [Aes256Gcm] (key : String)

/-- The row holds the body. -/
structure IntegrationCredential.Holds (row : IntegrationCredential) (dto : CreateCredentialDto) :
    Prop where
  name : row.name = dto.name.val
  type : row.type = dto.type.literal
  kind : row.kind = dto.kind.literal
  capabilities : row.capabilities = dto.capabilities
  value : CredentialsService.decryptCredential key row = some dto.value.val

/-- The table implements what is stored. -/
structure Implements (rows : CredentialTable) (stored : StoredCredentials) : Prop where
  ids_distinct : (rows.map (·.id)).Nodup
  names_distinct : (rows.map fun row => (row.workspaceId, row.type, row.name)).Nodup
  holds : ∀ row ∈ rows, ∃ dto, stored row.workspaceId row.id = some dto ∧ row.Holds key dto
  held : ∀ w id dto, stored w id = some dto → ∃ row ∈ rows, row.workspaceId = w ∧ row.id = id

end

section

open CredentialsService Unwinding

variable [Aes256Gcm] {key : String} {collation : Collation} {rows : CredentialTable}
  {stored : StoredCredentials} {ctx : CredentialContext} {workspaceId credentialId : String}
  {actorUserId : String} {dto : CreateCredentialDto}

theorem newCredential_holds :
    (newCredential key ctx workspaceId actorUserId dto).Holds key dto where
  name := rfl
  type := rfl
  kind := rfl
  capabilities := rfl
  value := Aes256Gcm.decrypt_encrypt _ _ _

omit [Aes256Gcm] in
theorem isCredential_iff {row : IntegrationCredential} :
    IsCredential workspaceId credentialId row = true
      ↔ row.id = credentialId ∧ row.workspaceId = workspaceId := by
  simp [IsCredential]

/-- A creation that is not rejected. -/
theorem Implements.create (h : Implements key rows stored)
    (hfree : ¬ Taken rows (newCredential key ctx workspaceId actorUserId dto)) :
    Implements key (rows ++ [newCredential key ctx workspaceId actorUserId dto])
      (stored.record (⟨ctx, .create workspaceId actorUserId dto⟩, .ok (.credential
        (toCredentialResponse (newCredential key ctx workspaceId actorUserId dto))))) where
  ids_distinct := Table.nodup_insert h.ids_distinct fun row hrow heq =>
    hfree ⟨row, hrow, Or.inl heq⟩
  names_distinct := Table.nodup_insert h.names_distinct fun row hrow heq => by
    simp only [Prod.mk.injEq] at heq
    exact hfree ⟨row, hrow, Or.inr heq⟩
  holds row hrow := by
    rcases List.mem_append.mp hrow with hold | hnew
    · obtain ⟨dto', hstored, hholds⟩ := h.holds row hold
      refine ⟨dto', ?_, hholds⟩
      have hid : row.id ≠ ctx.uuid := fun heq => hfree ⟨row, hold, Or.inl heq⟩
      simpa [StoredCredentials.record, toCredentialResponse, newCredential, hid] using hstored
    · obtain rfl := List.mem_singleton.mp hnew
      exact ⟨dto, by simp [StoredCredentials.record, toCredentialResponse, newCredential],
        newCredential_holds⟩
  held w id dto' hstored := by
    by_cases hnew : w = workspaceId ∧ id = ctx.uuid
    · exact ⟨_, List.mem_append_right _ List.mem_cons_self, hnew.1.symm, hnew.2.symm⟩
    · obtain ⟨row, hrow, hids⟩ := h.held w id dto'
        (by simpa [StoredCredentials.record, toCredentialResponse, newCredential, hnew]
          using hstored)
      exact ⟨row, List.mem_append_left _ hrow, hids⟩

omit [Aes256Gcm] in
theorem mem_removed {row : IntegrationCredential} :
    row ∈ (rows.filter fun row => !IsCredential workspaceId credentialId row)
      ↔ row ∈ rows ∧ ¬ (row.workspaceId = workspaceId ∧ row.id = credentialId) := by
  rw [List.mem_filter, Bool.not_eq_true', ← Bool.not_eq_true, isCredential_iff,
    and_comm (b := _ = workspaceId)]

theorem Implements.remove (h : Implements key rows stored) :
    Implements key (rows.filter fun row => !IsCredential workspaceId credentialId row)
      (stored.record (⟨ctx, .remove workspaceId credentialId⟩, .ok (.deleted credentialId))) where
  ids_distinct := h.ids_distinct.sublist (List.filter_sublist.map _)
  names_distinct := h.names_distinct.sublist (List.filter_sublist.map _)
  holds row hrow := by
    obtain ⟨hold, hother⟩ := mem_removed.mp hrow
    obtain ⟨dto', hstored, hholds⟩ := h.holds row hold
    exact ⟨dto', by simpa [StoredCredentials.record, hother] using hstored, hholds⟩
  held w id dto' hstored := by
    by_cases hgone : w = workspaceId ∧ id = credentialId
    · simp [StoredCredentials.record, hgone] at hstored
    · obtain ⟨row, hrow, rfl, rfl⟩ := h.held w id dto'
        (by simpa [StoredCredentials.record, hgone] using hstored)
      exact ⟨row, mem_removed.mpr ⟨hrow, hgone⟩, rfl, rfl⟩

/-- One request. -/
theorem Implements.step (h : Implements key rows stored) (action : CredentialAction) :
    Implements key (credentialStep key collation rows action).2
      (stored.record (action, (credentialStep key collation rows action).1)) := by
  obtain ⟨ctx, request⟩ := action
  cases request with
  | create workspaceId actorUserId dto =>
      simp only [credentialStep, CredentialsService.create]
      split
      · exact h
      · rename_i hfree
        exact h.create hfree
  | findAllForWorkspace workspaceId => exact h
  | remove workspaceId credentialId =>
      simp only [credentialStep, CredentialsService.remove]
      split
      · exact h
      · exact h.remove
  | findSecret workspaceId credentialId => exact h

/-- A run. -/
theorem implements_run (key : String) (collation : Collation) (actions : List CredentialAction) :
    Implements key (final (credentialStep key collation) [] actions)
      (storedAfter (replies (credentialStep key collation) [] actions)) := by
  induction actions using List.reverseRecOn with
  | nil =>
      exact
        { ids_distinct := .nil
          names_distinct := .nil
          holds := fun row hrow => absurd hrow List.not_mem_nil
          held := fun w id dto hstored => by cases hstored }
  | append_singleton actions action ih =>
      rw [final_concat, replies_concat, storedAfter, List.foldl_concat]
      exact ih.step action

/-! ### Answers -/

/-- The row that a lookup finds. -/
theorem Implements.find? (h : Implements key rows stored) (w id : String) :
    match stored w id with
    | some dto => ∃ row, rows.find? (IsCredential w id) = some row ∧ row.workspaceId = w
      ∧ row.id = id ∧ row.Holds key dto
    | none => rows.find? (IsCredential w id) = none := by
  cases hfind : rows.find? (IsCredential w id) with
  | none =>
      cases hstored : stored w id with
      | none => rfl
      | some dto =>
          obtain ⟨row, hrow, hw, hid⟩ := h.held w id dto hstored
          exact absurd (isCredential_iff.mpr ⟨hid, hw⟩) (List.find?_eq_none.mp hfind row hrow)
  | some row =>
      obtain ⟨hid, hw⟩ := isCredential_iff.mp (List.find?_some hfind)
      obtain ⟨dto, hstored, hholds⟩ := h.holds row (List.mem_of_find?_eq_some hfind)
      rw [hid, hw] at hstored
      rw [hstored]
      exact ⟨row, rfl, hw, hid, hholds⟩

theorem Implements.findSecret_eq (h : Implements key rows stored) (w id : String) :
    findSecret key rows w id = match stored w id with
      | some dto => .ok (.secret (dto.secret w id))
      | none => .error (.notFoundException "Credential not found") := by
  have hfind := h.find? w id
  unfold findSecret
  cases hstored : stored w id with
  | none =>
      rw [hstored] at hfind
      rw [hfind]
  | some dto =>
      rw [hstored] at hfind
      obtain ⟨row, hrow, rfl, rfl, hholds⟩ := hfind
      simp only [hrow, hholds.value]
      simp [CreateCredentialDto.secret, hholds.type, hholds.kind, hholds.capabilities]

theorem Implements.remove_eq (h : Implements key rows stored) (w id : String) :
    (CredentialsService.remove rows w id).1 = match stored w id with
      | some _ => .ok (.deleted id)
      | none => .error (.notFoundException "Credential not found") := by
  have hfind := h.find? w id
  unfold CredentialsService.remove
  cases hstored : stored w id with
  | none =>
      rw [hstored] at hfind
      have hnone : rows.filter (IsCredential w id) = [] :=
        List.filter_eq_nil_iff.mpr (List.find?_eq_none.mp hfind)
      simp [hnone]
  | some dto =>
      rw [hstored] at hfind
      obtain ⟨row, hrow, -⟩ := hfind
      have hmem : row ∈ rows.filter (IsCredential w id) :=
        List.mem_filter.mpr ⟨List.mem_of_find?_eq_some hrow, List.find?_some hrow⟩
      rw [if_neg fun hnil => by rw [List.length_eq_zero_iff.mp hnil] at hmem; cases hmem]

omit [Aes256Gcm] in
theorem CredentialType.literal_inj {a b : CredentialType} (h : a.literal = b.literal) : a = b := by
  cases a <;> cases b <;> first | rfl | exact absurd h (by decide)

/-- A creation is rejected. -/
theorem Implements.taken_iff (h : Implements key rows stored) (actorUserId : String) :
    Taken rows (newCredential key ctx workspaceId actorUserId dto)
      ↔ (∃ w dto', stored w ctx.uuid = some dto')
        ∨ ∃ id dto', stored workspaceId id = some dto' ∧ dto'.type = dto.type
          ∧ dto'.name = dto.name := by
  constructor
  · rintro ⟨row, hrow, hid | ⟨hw, htype, hname⟩⟩
    · obtain ⟨dto', hstored, -⟩ := h.holds row hrow
      have hid : row.id = ctx.uuid := hid
      exact Or.inl ⟨row.workspaceId, dto', hid ▸ hstored⟩
    · obtain ⟨dto', hstored, hholds⟩ := h.holds row hrow
      have hw : row.workspaceId = workspaceId := hw
      refine Or.inr ⟨row.id, dto', hw ▸ hstored, ?_, ?_⟩
      · exact CredentialType.literal_inj (hholds.type.symm.trans htype)
      · exact Subtype.ext (hholds.name.symm.trans hname)
  · rintro (⟨w, dto', hstored⟩ | ⟨id, dto', hstored, htype, hname⟩)
    · obtain ⟨row, hrow, -, hid⟩ := h.held w _ dto' hstored
      exact ⟨row, hrow, Or.inl hid⟩
    · obtain ⟨row, hrow, hw, hid⟩ := h.held _ id dto' hstored
      obtain ⟨dto'', hstored', hholds⟩ := h.holds row hrow
      rw [hw, hid, hstored] at hstored'
      obtain rfl := Option.some.inj hstored'
      refine ⟨row, hrow, Or.inr ⟨hw, ?_, ?_⟩⟩
      · rw [hholds.type, htype]
        rfl
      · rw [hholds.name, hname]
        rfl

/-- The list shows what is stored in the workspace, once each and in order. -/
structure Lists (collation : Collation) (stored : StoredCredentials) (workspaceId : String)
    (responses : List CredentialResponse) : Prop where
  sorted : responses.Pairwise (ListedBefore collation)
  ids_distinct : (responses.map (·.id)).Nodup
  complete : ∀ id dto, stored workspaceId id = some dto → id ∈ responses.map (·.id)
  shows : ∀ response ∈ responses, ∃ dto, stored workspaceId response.id = some dto
    ∧ response.workspaceId = workspaceId ∧ response.name = dto.name.val
    ∧ response.type = dto.type.literal ∧ response.kind = dto.kind.literal
    ∧ response.capabilities = dto.capabilities

omit [Aes256Gcm] in
theorem listedBefore_total (a b : CredentialResponse) :
    ListedBefore collation a b ∨ ListedBefore collation b a := by
  unfold ListedBefore
  by_cases htype : a.type = b.type
  · simpa [htype] using collation.total a.name b.name
  · simpa [htype, Ne.symm htype] using collation.total a.type b.type

omit [Aes256Gcm] in
theorem listedBefore_trans {a b c : CredentialResponse} (hab : ListedBefore collation a b)
    (hbc : ListedBefore collation b c) : ListedBefore collation a c := by
  unfold ListedBefore at *
  by_cases htype : a.type = b.type
  · by_cases htype' : b.type = c.type
    · rw [if_pos htype] at hab
      rw [if_pos htype'] at hbc
      rw [if_pos (htype.trans htype')]
      exact collation.trans _ _ _ hab hbc
    · rw [if_neg htype'] at hbc
      rwa [if_neg (htype ▸ htype'), htype]
  · rw [if_neg htype] at hab
    by_cases htype' : b.type = c.type
    · rwa [if_neg (htype' ▸ htype), ← htype']
    · rw [if_neg htype'] at hbc
      have hac : a.type ≠ c.type := fun heq => htype (collation.antisymm _ _ hab (heq ▸ hbc))
      rw [if_neg hac]
      exact collation.trans _ _ _ hab hbc

omit [Aes256Gcm] in
theorem findMany_perm :
    (findMany collation rows workspaceId).Perm (rows.filter (·.workspaceId = workspaceId)) :=
  List.perm_insertionSort _ _

omit [Aes256Gcm] in
theorem mem_findMany {row : IntegrationCredential} :
    row ∈ findMany collation rows workspaceId ↔ row ∈ rows ∧ row.workspaceId = workspaceId := by
  simp [findMany_perm.mem_iff]

omit [Aes256Gcm] in
theorem findMany_sorted : ((findMany collation rows workspaceId).map toCredentialResponse).Pairwise
    (ListedBefore collation) := by
  rw [List.pairwise_map]
  have : Std.Total fun a b => ListedBefore collation (toCredentialResponse a)
      (toCredentialResponse b) := ⟨fun a b => listedBefore_total _ _⟩
  have : IsTrans _ fun a b => ListedBefore collation (toCredentialResponse a)
      (toCredentialResponse b) := ⟨fun a b c => listedBefore_trans⟩
  exact List.pairwise_insertionSort _ _

theorem Implements.lists (h : Implements key rows stored) :
    Lists collation stored workspaceId
      ((findMany collation rows workspaceId).map toCredentialResponse) where
  sorted := findMany_sorted
  ids_distinct := by
    rw [List.map_map, (findMany_perm.map _).nodup_iff]
    exact h.ids_distinct.sublist (List.filter_sublist.map _)
  complete id dto hstored := by
    obtain ⟨row, hrow, hw, hid⟩ := h.held workspaceId id dto hstored
    rw [List.map_map]
    exact List.mem_map.mpr ⟨row, mem_findMany.mpr ⟨hrow, hw⟩, hid⟩
  shows response hresponse := by
    obtain ⟨row, hrow, rfl⟩ := List.mem_map.mp hresponse
    obtain ⟨hrow, hw⟩ := mem_findMany.mp hrow
    obtain ⟨dto, hstored, hholds⟩ := h.holds row hrow
    exact ⟨dto, hw ▸ hstored, hw, hholds.name, hholds.type, hholds.kind, hholds.capabilities⟩

/-- **Credentials by their history.** After any run of requests, a lookup
answers with the body that was created under the id in that workspace and not
removed since, its value decrypted, and with a 404 for anything else; a
removal likewise; a creation is rejected exactly where its id is taken or the
workspace has a credential of that type and name; and the list of a workspace
shows what is stored there. -/
theorem credentials_meet_history (key : String) (collation : Collation)
    (actions : List CredentialAction) (workspaceId : String) :
    let rows := final (credentialStep key collation) [] actions
    let stored := storedAfter (replies (credentialStep key collation) [] actions)
    (∀ id, findSecret key rows workspaceId id = match stored workspaceId id with
      | some dto => .ok (.secret (dto.secret workspaceId id))
      | none => .error (.notFoundException "Credential not found"))
    ∧ (∀ id, (CredentialsService.remove rows workspaceId id).1 = match stored workspaceId id with
      | some _ => .ok (.deleted id)
      | none => .error (.notFoundException "Credential not found"))
    ∧ (∀ ctx actorUserId dto,
      (CredentialsService.create key ctx rows workspaceId actorUserId dto).1
          = .error (.conflictException "Credential name already exists for this credential type")
        ↔ (∃ w dto', stored w ctx.uuid = some dto')
          ∨ ∃ id dto', stored workspaceId id = some dto' ∧ dto'.type = dto.type
            ∧ dto'.name = dto.name)
    ∧ ∃ responses, findAllForWorkspace collation rows workspaceId = .ok (.credentials responses)
      ∧ Lists collation stored workspaceId responses := by
  intro rows stored
  have h : Implements key rows stored := implements_run key collation actions
  refine ⟨h.findSecret_eq workspaceId, h.remove_eq workspaceId, fun ctx actorUserId dto => ?_,
    _, rfl, h.lists⟩
  rw [← h.taken_iff actorUserId, CredentialsService.create]
  split
  · rename_i htaken
    exact iff_of_true rfl htaken
  · rename_i hfree
    exact iff_of_false (by simp) hfree

omit [Aes256Gcm] in
/-- The history of two workspaces: each stores a credential, the second looks
up the one of the first and then its own, and the first removes its own. -/
theorem credentials_meet_history_removed :
    let _ := Aes256Gcm.plain
    let create := fun workspaceId id value => CredentialAction.mk ⟨0, id, "iv"⟩
      (.create workspaceId "user" (openAiCredential value))
    let lookup := fun id => CredentialAction.mk ⟨0, "", ""⟩ (.findSecret "globex" id)
    let actions := [create "acme" "first" ⟨"a", by decide⟩,
      create "globex" "second" ⟨"b", by decide⟩, lookup "first", lookup "second",
      ⟨⟨0, "", ""⟩, .remove "acme" "first"⟩]
    let rows := final (credentialStep "key" .binary) [] actions
    findSecret "key" rows "acme" "first" = .error (.notFoundException "Credential not found")
    ∧ findSecret "key" rows "acme" "second" = .error (.notFoundException "Credential not found")
    ∧ findSecret "key" rows "globex" "second" = .ok (.secret
      ((openAiCredential ⟨"b", by decide⟩).secret "globex" "second"))
    ∧ (CredentialsService.remove rows "acme" "second").1
      = .error (.notFoundException "Credential not found") := by
  intro _ create lookup actions rows
  obtain ⟨hacme, hremove, -⟩ := credentials_meet_history "key" .binary actions "acme"
  obtain ⟨hglobex, -⟩ := credentials_meet_history "key" .binary actions "globex"
  exact ⟨hacme "first", hacme "second", hglobex "second", hremove "second"⟩

end

/-! ## What the members of a workspace see -/

/-- The members of the workspace send the request. -/
def CredentialAction.isOf (workspaceId : String) (action : CredentialAction) : Bool :=
  match action.request with
  | .create w _ _ | .findAllForWorkspace w | .remove w _ => w = workspaceId
  | .findSecret _ _ => false

/-- They see the answers to their own requests. -/
def seenBy (workspaceId : String) (action : CredentialAction)
    (answer : Except ApiError CredentialAnswer) : Option (Except ApiError CredentialAnswer) :=
  if action.isOf workspaceId then some answer else none

/-- The same request, but for the secret of a creation and its random
bytes. -/
def SameButSecret (a b : CredentialAction) : Prop :=
  a.ctx.now = b.ctx.now ∧ a.ctx.uuid = b.ctx.uuid ∧
    match a.request, b.request with
    | .create w actorUserId dto, .create w' actorUserId' dto' =>
        w = w' ∧ actorUserId = actorUserId' ∧ { dto with value := dto'.value } = dto'
    | request, request' => request = request'

/-- The id that a creation is given. -/
def CredentialAction.createdId? (action : CredentialAction) : Option String :=
  match action.request with
  | .create _ _ _ => some action.ctx.uuid
  | _ => none

/-- No id is given twice. -/
def FreshIds (rows : CredentialTable) (actions : List CredentialAction) : Prop :=
  (rows.map (·.id) ++ actions.filterMap (·.createdId?)).Nodup

/-- What the table holds for the members of a workspace. -/
def ownCredentials (workspaceId : String) (rows : CredentialTable) : List CredentialResponse :=
  (rows.filter (·.workspaceId = workspaceId)).map toCredentialResponse

section

open CredentialsService Unwinding

variable [Aes256Gcm] {key : String} {collation : Collation} {rows : CredentialTable}
  {ctx : CredentialContext} {workspaceId w credentialId actorUserId : String}
  {dto : CreateCredentialDto} {actions : List CredentialAction}

omit [Aes256Gcm] in
theorem mem_ownCredentials {response : CredentialResponse} :
    response ∈ ownCredentials workspaceId rows
      ↔ ∃ row ∈ rows, row.workspaceId = workspaceId ∧ toCredentialResponse row = response := by
  simp [ownCredentials, and_assoc]

omit [Aes256Gcm] in
/-- The rest of a run of fresh ids. -/
theorem FreshIds.rest {rows' : CredentialTable} {action : CredentialAction}
    (h : FreshIds rows (action :: actions)) (hrows : rows'.Sublist rows) :
    FreshIds rows' actions :=
  h.sublist ((hrows.map _).append ((List.sublist_cons_self action actions).filterMap _))

omit [Aes256Gcm] in
theorem FreshIds.not_mem
    (h : FreshIds rows (⟨ctx, .create workspaceId actorUserId dto⟩ :: actions)) :
    ∀ row ∈ rows, row.id ≠ ctx.uuid := by
  intro row hrow heq
  refine (List.nodup_append'.mp h).2.2 (List.mem_map_of_mem hrow) ?_
  rw [heq]
  exact List.mem_cons_self

theorem FreshIds.create
    (h : FreshIds rows (⟨ctx, .create workspaceId actorUserId dto⟩ :: actions)) :
    FreshIds (rows ++ [newCredential key ctx workspaceId actorUserId dto]) actions := by
  unfold FreshIds
  rw [List.map_append, List.append_assoc]
  exact h

/-- One request. -/
theorem FreshIds.step {action : CredentialAction} (h : FreshIds rows (action :: actions)) :
    FreshIds (credentialStep key collation rows action).2 actions := by
  obtain ⟨ctx, request⟩ := action
  cases request with
  | create workspaceId actorUserId dto =>
      simp only [credentialStep, CredentialsService.create]
      split
      · exact h.rest (.refl _)
      · exact h.create
  | findAllForWorkspace workspaceId => exact h.rest (.refl _)
  | remove workspaceId credentialId =>
      simp only [credentialStep, CredentialsService.remove]
      split
      · exact h.rest (.refl _)
      · exact h.rest List.filter_sublist
  | findSecret workspaceId credentialId => exact h.rest (.refl _)

/-! ### The answers by what is their own -/

/-- The response to a creation that is not rejected. -/
def createdResponse (ctx : CredentialContext) (workspaceId : String) (dto : CreateCredentialDto) :
    CredentialResponse where
  id := ctx.uuid
  workspaceId
  name := dto.name.val
  type := dto.type.literal
  kind := dto.kind.literal
  capabilities := dto.capabilities
  lastUsedAt := none
  createdAt := ctx.now
  updatedAt := ctx.now

/-- The workspace has a credential of the type and the name. -/
def HasNamesake (own : List CredentialResponse) (dto : CreateCredentialDto) : Prop :=
  ∃ response ∈ own, response.type = dto.type.literal ∧ response.name = dto.name.val

instance (own : List CredentialResponse) (dto : CreateCredentialDto) :
    Decidable (HasNamesake own dto) :=
  inferInstanceAs (Decidable (∃ response ∈ own, _))

/-- A creation with a fresh id is a matter of what the workspace has. -/
theorem create_own (key : String)
    (h : FreshIds rows (⟨ctx, .create workspaceId actorUserId dto⟩ :: actions)) :
    (CredentialsService.create key ctx rows workspaceId actorUserId dto).1
        = (if HasNamesake (ownCredentials workspaceId rows) dto then
            .error (.conflictException "Credential name already exists for this credential type")
          else .ok (.credential (createdResponse ctx workspaceId dto)))
      ∧ ownCredentials workspaceId
          (CredentialsService.create key ctx rows workspaceId actorUserId dto).2
        = if HasNamesake (ownCredentials workspaceId rows) dto then ownCredentials workspaceId rows
          else ownCredentials workspaceId rows ++ [createdResponse ctx workspaceId dto] := by
  have htaken : Taken rows (newCredential key ctx workspaceId actorUserId dto)
      ↔ HasNamesake (ownCredentials workspaceId rows) dto := by
    constructor
    · rintro ⟨row, hrow, hid | ⟨hw, htype, hname⟩⟩
      · exact absurd hid (h.not_mem row hrow)
      · exact ⟨_, mem_ownCredentials.mpr ⟨row, hrow, hw, rfl⟩, htype, hname⟩
    · rintro ⟨response, hresponse, htype, hname⟩
      obtain ⟨row, hrow, hw, rfl⟩ := mem_ownCredentials.mp hresponse
      exact ⟨row, hrow, Or.inr ⟨hw, htype, hname⟩⟩
  simp only [CredentialsService.create, htaken]
  split
  · exact ⟨rfl, rfl⟩
  · refine ⟨rfl, ?_⟩
    have hown : (newCredential key ctx workspaceId actorUserId dto).workspaceId = workspaceId := rfl
    simp only [ownCredentials, List.filter_append, List.filter_singleton, hown, decide_true,
      List.map_append]
    rfl

omit [Aes256Gcm] in
/-- A removal takes out what is removed of the workspace itself, and nothing
else. -/
theorem ownCredentials_removed (w : String) :
    ownCredentials w (rows.filter fun row => !IsCredential workspaceId credentialId row)
      = if w = workspaceId then (ownCredentials w rows).filter (·.id ≠ credentialId)
        else ownCredentials w rows := by
  split
  · rename_i hw
    subst hw
    simp only [ownCredentials, List.filter_map, List.filter_filter]
    refine congrArg _ (List.filter_congr fun row _ => ?_)
    by_cases hw : row.workspaceId = w <;> simp [IsCredential, hw, toCredentialResponse]
  · rename_i hw
    simp only [ownCredentials, List.filter_filter]
    refine congrArg _ (List.filter_congr fun row _ => ?_)
    by_cases hrow : row.workspaceId = w
    · have hne : ¬ row.workspaceId = workspaceId := fun heq => hw (hrow.symm.trans heq)
      simp [IsCredential, hrow, hw]
    · simp [hrow]

omit [Aes256Gcm] in
theorem remove_own (rows : CredentialTable) (workspaceId credentialId : String) :
    (CredentialsService.remove rows workspaceId credentialId).1
        = (if ∃ response ∈ ownCredentials workspaceId rows, response.id = credentialId then
            .ok (.deleted credentialId)
          else .error (.notFoundException "Credential not found"))
      ∧ ownCredentials workspaceId (CredentialsService.remove rows workspaceId credentialId).2
        = (ownCredentials workspaceId rows).filter (·.id ≠ credentialId) := by
  have hfound : (rows.filter (IsCredential workspaceId credentialId)).length = 0
      ↔ ¬ ∃ response ∈ ownCredentials workspaceId rows, response.id = credentialId := by
    rw [List.length_eq_zero_iff, List.filter_eq_nil_iff]
    constructor
    · rintro hnone ⟨response, hresponse, hid⟩
      obtain ⟨row, hrow, hw, rfl⟩ := mem_ownCredentials.mp hresponse
      exact hnone row hrow (isCredential_iff.mpr ⟨hid, hw⟩)
    · intro hnone row hrow hfound
      obtain ⟨hid, hw⟩ := isCredential_iff.mp hfound
      exact hnone ⟨_, mem_ownCredentials.mpr ⟨row, hrow, hw, rfl⟩, hid⟩
  simp only [CredentialsService.remove, hfound]
  split
  · rename_i hnone
    refine ⟨rfl, (List.filter_eq_self.mpr fun response hresponse => ?_).symm⟩
    simpa using fun hid => hnone ⟨response, hresponse, hid⟩
  · rename_i hfound
    refine ⟨(if_pos (not_not.mp hfound)).symm, ?_⟩
    rw [ownCredentials_removed, if_pos rfl]

omit [Aes256Gcm] in
theorem findAllForWorkspace_own : findAllForWorkspace collation rows workspaceId
    = .ok (.credentials ((ownCredentials workspaceId rows).insertionSort
        (ListedBefore collation))) := by
  unfold findAllForWorkspace findMany ownCredentials
  rw [List.map_insertionSort _ (ListedBefore collation) _ _ fun a _ b _ => Iff.rfl]

/-- Requests of others leave what the workspace has. -/
theorem ownCredentials_step {action : CredentialAction} (h : action.isOf workspaceId = false) :
    ownCredentials workspaceId (credentialStep key collation rows action).2
      = ownCredentials workspaceId rows := by
  obtain ⟨ctx, request⟩ := action
  cases request with
  | create w actorUserId dto =>
      have hw : ¬ w = workspaceId := by simpa [CredentialAction.isOf] using h
      simp only [credentialStep, CredentialsService.create]
      split
      · rfl
      · simp [ownCredentials, newCredential, hw]
  | findAllForWorkspace w => rfl
  | remove w credentialId =>
      have hw : ¬ workspaceId = w := by simpa [CredentialAction.isOf, eq_comm] using h
      simp only [credentialStep, CredentialsService.remove]
      split
      · rfl
      · rw [ownCredentials_removed, if_neg hw]
  | findSecret w credentialId => rfl

/-- What a request of the workspace answers and leaves is a matter of what the
workspace has, and of the request without its secret. -/
theorem credentialStep_own {a b : CredentialAction} {actions' : List CredentialAction}
    {rows' : CredentialTable} (hfresh : FreshIds rows (a :: actions))
    (hfresh' : FreshIds rows' (b :: actions')) (ha : a.isOf workspaceId = true)
    (hsame : SameButSecret a b)
    (hown : ownCredentials workspaceId rows = ownCredentials workspaceId rows') :
    (credentialStep key collation rows a).1 = (credentialStep key collation rows' b).1
      ∧ ownCredentials workspaceId (credentialStep key collation rows a).2
        = ownCredentials workspaceId (credentialStep key collation rows' b).2 := by
  obtain ⟨ctx, request⟩ := a
  obtain ⟨ctx', request'⟩ := b
  obtain ⟨hnow, huuid, hrequest⟩ := hsame
  cases request with
  | create w actorUserId dto =>
      cases request' with
      | create w' actorUserId' dto' =>
          obtain ⟨rfl, rfl, hdto⟩ := hrequest
          obtain rfl : w = workspaceId := by simpa [CredentialAction.isOf] using ha
          obtain ⟨hanswer, hrest⟩ := create_own key hfresh
          obtain ⟨hanswer', hrest'⟩ := create_own key hfresh'
          have hnamesake : HasNamesake (ownCredentials w rows') dto
              ↔ HasNamesake (ownCredentials w rows') dto' := by rw [← hdto]; rfl
          have hresponse : createdResponse ctx w dto = createdResponse ctx' w dto' := by
            rw [← hdto]
            simp only [createdResponse, CredentialResponse.mk.injEq]
            exact ⟨huuid, trivial, trivial, trivial, trivial, trivial, trivial, hnow, hnow⟩
          simp only [credentialStep]
          rw [hanswer, hanswer', hrest, hrest', hown, hresponse]
          simp only [hnamesake, and_self]
      | _ => cases hrequest
  | findAllForWorkspace w =>
      cases request' with
      | findAllForWorkspace w' =>
          cases hrequest
          obtain rfl : w = workspaceId := by simpa [CredentialAction.isOf] using ha
          simp only [credentialStep, findAllForWorkspace_own, hown, and_self]
      | _ => cases hrequest
  | remove w credentialId =>
      cases request' with
      | remove w' credentialId' =>
          cases hrequest
          obtain rfl : w = workspaceId := by simpa [CredentialAction.isOf] using ha
          obtain ⟨hanswer, hrest⟩ := remove_own rows w credentialId
          obtain ⟨hanswer', hrest'⟩ := remove_own rows' w credentialId
          simp only [credentialStep]
          rw [hanswer, hanswer', hrest, hrest', hown]
          exact ⟨rfl, rfl⟩
      | _ => cases hrequest
  | findSecret w credentialId => cases ha

omit [Aes256Gcm] in
theorem SameButSecret.isOf_eq {a b : CredentialAction} (h : SameButSecret a b) :
    a.isOf workspaceId = b.isOf workspaceId := by
  obtain ⟨ctx, request⟩ := a
  obtain ⟨ctx', request'⟩ := b
  obtain ⟨-, -, hrequest⟩ := h
  cases request with
  | create w actorUserId dto =>
      cases request' with
      | create w' actorUserId' dto' => rw [CredentialAction.isOf, CredentialAction.isOf, hrequest.1]
      | _ => cases hrequest
  | _ =>
      obtain rfl : _ = request' := by
        cases request' with
        | create w' actorUserId' dto' => cases hrequest
        | _ => exact hrequest
      rfl

/-- **Credentials are confidential.** As long as no id is given twice, what
the members of a workspace are answered depends on what their workspace had
and on their own requests without the secrets in them: not on the requests of
others, not on lookups of secrets, and not on the values that they store
themselves. -/
theorem credentials_confidential (key : String) (collation : Collation) (workspaceId : String)
    (rows rows' : CredentialTable) (actions actions' : List CredentialAction)
    (hfresh : FreshIds rows actions) (hfresh' : FreshIds rows' actions')
    (hown : ownCredentials workspaceId rows = ownCredentials workspaceId rows')
    (hsame : List.Forall₂ SameButSecret (actions.filter (·.isOf workspaceId))
      (actions'.filter (·.isOf workspaceId))) :
    observe (credentialStep key collation) (seenBy workspaceId) rows actions
      = observe (credentialStep key collation) (seenBy workspaceId) rows' actions' := by
  have hunwinding : Unwinding (credentialStep key collation) (·.isOf workspaceId)
      (seenBy workspaceId) SameButSecret FreshIds (ownCredentials workspaceId) :=
    { proper_rest := FreshIds.step
      hidden_kept := fun _ ha => ownCredentials_step ha
      hidden_unseen := fun ha => by simp [seenBy, ha]
      visible_kept := fun hs ht ha hab hview => (credentialStep_own hs ht ha hab hview).2
      visible_seen := fun hs ht ha hab hview => by
        simp only [seenBy, ← hab.isOf_eq, ha, if_true]
        rw [(credentialStep_own hs ht ha hab hview).1] }
  exact hunwinding.observe_eq hfresh hfresh' hown hsame

omit [Aes256Gcm] in
/-- Two runs with different secrets, one of them among requests of others. -/
theorem credentials_confidential_secrets :
    let _ := Aes256Gcm.plain
    let own := fun value => CredentialAction.mk ⟨0, "id", "iv"⟩
      (.create "workspace" "user" (openAiCredential value))
    let foreign := CredentialAction.mk ⟨0, "other", "iv"⟩
      (.create "elsewhere" "user" (openAiCredential ⟨"c", by decide⟩))
    let lookup := CredentialAction.mk ⟨0, "", ""⟩ (.findSecret "workspace" "id")
    observe (credentialStep "key" .binary) (seenBy "workspace") []
        [own ⟨"a", by decide⟩]
      = observe (credentialStep "key" .binary) (seenBy "workspace") []
        [foreign, own ⟨"b", by decide⟩, lookup] := by
  intro _ own foreign lookup
  refine credentials_confidential "key" .binary "workspace" [] [] _ _ ?_ ?_ rfl ?_
  · exact List.nodup_singleton _
  · show (["other", "id"] : List String).Nodup
    decide
  · exact .cons ⟨rfl, rfl, rfl, rfl, rfl⟩ .nil

end

end FlowPilot.Api
