import Kraal.WebhookDelivery.Service

/-!
# The webhook API

Webhooks are registered, listed, changed and deactivated over HTTP while the delivery service works
on the same table.  The secret of a webhook is in the response to its registration and in the
response to every rotation, and in no other.

Main results:

- Definition {lit}`respond`: the response to a request and the statement that it issues.
- Definition {lit}`World`: the API and the delivery service on one database.
- Theorem {lit}`respond_fits`: a statement inserts a row under a new id or updates a stored one.
- Theorem {lit}`tells_eq_writes`: the secrets in the responses are those that are written.
- Theorem {lit}`advance_inputs`: whatever happens is a series of inputs of the delivery service.
-/

namespace Kraal
namespace WebhookDelivery

open Foundation
open Backend (Json isNonEmptyString)
open EventIndexer (RpcEvent WebhookRegistrationRow newDelivery)

/-! ## The table of the registrations -/

/-- A registration with its times. -/
structure RegistrationRow extends Webhook where
  createdAt : Int
  updatedAt : Int

/-- The fields of a registration that are written, those that are given. -/
structure WebhookFields where
  url : Option String := none
  secret : Option String := none
  active : Option Bool := none

/-- No field is given. -/
def WebhookFields.isEmpty (fields : WebhookFields) : Bool :=
  fields.url.isNone && fields.secret.isNone && fields.active.isNone

/-- Write the fields that are given. -/
def WebhookFields.apply (fields : WebhookFields) (row : RegistrationRow) (updatedAt : Int) :
    RegistrationRow :=
  { row with
    url := fields.url.getD row.url
    secret := fields.secret.getD row.secret
    active := fields.active.getD row.active
    updatedAt := updatedAt }

/-- Read a registration. -/
def getWebhook (rows : List RegistrationRow) (id : String) : Option RegistrationRow :=
  rows.find? fun row => row.id = id

/-- Store a registration. -/
def insertWebhook (rows : List RegistrationRow) (row : RegistrationRow) : List RegistrationRow :=
  rows ++ [row]

/-- Without fields to write there is no statement. -/
def updateWebhook (rows : List RegistrationRow) (id : String) (fields : WebhookFields)
    (updatedAt : Int) : List RegistrationRow :=
  if fields.isEmpty then rows
  else rows.map fun row => if row.id = id then fields.apply row updatedAt else row

/-- The database lists the registrations, the newest first.  Those of the same time come in any
order. -/
structure ListingQuery where
  listAllWebhooks : List RegistrationRow → List RegistrationRow
  perm : ∀ rows, (listAllWebhooks rows).Perm rows
  sorted : ∀ rows, (listAllWebhooks rows).Pairwise fun row row' => row'.createdAt ≤ row.createdAt

/-- A writing statement. -/
inductive Statement where
  | insert (row : RegistrationRow)
  | update (id : String) (fields : WebhookFields) (updatedAt : Int)

/-- What a statement does to the registrations. -/
def Statement.apply (rows : List RegistrationRow) : Statement → List RegistrationRow
  | .insert row => insertWebhook rows row
  | .update id fields updatedAt => updateWebhook rows id fields updatedAt

/-- Carry out the statement of a request if it issues one. -/
def applyAny (rows : List RegistrationRow) : Option Statement → List RegistrationRow
  | none => rows
  | some statement => statement.apply rows

/-! ## Requests and responses -/

/-- A request with what the handler draws at random. -/
inductive ApiRequest where
  | register (body : Json) (uuid secret : String)
  | list (query : ListingQuery)
  | get (id : String)
  | patch (id : String) (body : Json)
  | rotateSecret (id secret : String)
  | delete (id : String)

/-- A response: its body is missing if there is none, or if the handler has thrown. -/
structure ApiResponse where
  status : Nat
  body : Option Json

/-- A response with an error. -/
def ApiResponse.error (status : Nat) (message : String) : ApiResponse :=
  ⟨status, some (.obj [("error", .str message)])⟩

/-- The response when there is no such registration. -/
def webhookNotFound : ApiResponse := .error 404 "webhook not found"

/-- The answer of the framework to an exception. -/
def ApiResponse.thrown : ApiResponse := ⟨500, none⟩

/-- The fields of a registration that are shown. -/
def shownFields (row : RegistrationRow) : List (String × Json) :=
  [("id", .str row.id), ("url", .str row.url), ("eventType", .str row.eventType),
    ("active", .num (if row.active then 1 else 0)), ("createdAt", .num row.createdAt),
    ("updatedAt", .num row.updatedAt)]

/-- What a response shows of a registration. -/
def toResponse (row : RegistrationRow) : Json := .obj (shownFields row)

/-- The text that a property holds. -/
def textField (name : String) (body : Json) : Option String :=
  match body.field name with
  | some (.str text) => some text
  | _ => none

/-- The truth value that a property holds. -/
def boolField (name : String) (body : Json) : Option Bool :=
  match body.field name with
  | some (.bool b) => some b
  | _ => none

section

variable (validUrl : String → Bool) (rows : List RegistrationRow) (now : Int)

/-- Answer with the row under an id as it is after a statement. -/
def answerAfter (statement : Statement) (id : String) (answer : RegistrationRow → ApiResponse) :
    ApiResponse × Option Statement :=
  match getWebhook (statement.apply rows) id with
  | some row => (answer row, some statement)
  | none => (.thrown, some statement)

/-- Go on with the row under an id if there is one. -/
def withWebhook (id : String) (answer : RegistrationRow → ApiResponse × Option Statement) :
    ApiResponse × Option Statement :=
  match getWebhook rows id with
  | some row => answer row
  | none => (webhookNotFound, none)

/-- `POST /webhooks`.  An id that is taken violates the primary key. -/
def registerWebhook (body : Json) (uuid secret : String) : ApiResponse × Option Statement :=
  match isNonEmptyString (body.field "url") with
  | none => (.error 400 "url is required", none)
  | some url =>
      match isNonEmptyString (body.field "eventType") with
      | none => (.error 400 "eventType is required", none)
      | some eventType =>
          if validUrl url then
            if (getWebhook rows uuid).isSome then (.thrown, none)
            else answerAfter rows (.insert ⟨⟨⟨uuid, eventType, true⟩, url, secret⟩, now, now⟩) uuid
              fun row => ⟨201, some (.obj (shownFields row ++ [("secret", .str secret)]))⟩
          else (.error 400 "url must be a valid URL", none)

/-- `PATCH /webhooks/:id`. -/
def patchWebhook (id : String) (body : Json) : ApiResponse × Option Statement :=
  withWebhook rows id fun _ =>
    if (textField "url" body).all validUrl then
      answerAfter rows
        (.update id { url := textField "url" body, active := boolField "active" body } now) id
        fun row => ⟨200, some (toResponse row)⟩
    else (.error 400 "url must be a valid URL", none)

/-- The response to a request, and the statement that it issues. -/
def respond : ApiRequest → ApiResponse × Option Statement
  | .register body uuid secret => registerWebhook validUrl rows now body uuid secret
  | .list query =>
      (⟨200, some (.obj [("webhooks", .arr ((query.listAllWebhooks rows).map toResponse))])⟩, none)
  | .get id => withWebhook rows id fun row => (⟨200, some (toResponse row)⟩, none)
  | .patch id body => patchWebhook validUrl rows now id body
  | .rotateSecret id secret =>
      withWebhook rows id fun _ =>
        (⟨200, some (.obj [("id", .str id), ("secret", .str secret)])⟩,
          some (.update id { secret := secret } now))
  | .delete id =>
      withWebhook rows id fun _ => (⟨204, none⟩, some (.update id { active := some false } now))

end

/-! ## What a statement does to a row -/

variable {validUrl : String → Bool} {rows : List RegistrationRow} {now : Int} {id : String}
  {row : RegistrationRow} {request : ApiRequest}

/-- The registration under an id after one more. -/
theorem getWebhook_insert (rows : List RegistrationRow) (row : RegistrationRow) (id : String) :
    getWebhook (insertWebhook rows row) id =
      (getWebhook rows id).or (if row.id = id then some row else none) := by
  rw [getWebhook, insertWebhook, List.find?_append, getWebhook]
  congr 1
  by_cases hid : row.id = id
  · simp [hid]
  · simp [hid]

/-- The registration under an id after an update. -/
theorem getWebhook_update (rows : List RegistrationRow) (id' : String) (fields : WebhookFields)
    (updatedAt : Int) (id : String) :
    getWebhook (updateWebhook rows id' fields updatedAt) id =
      (getWebhook rows id).map fun row =>
        if fields.isEmpty = false ∧ id = id' then fields.apply row updatedAt else row := by
  unfold updateWebhook
  cases hempty : fields.isEmpty with
  | true => simp
  | false =>
      simp only [Bool.false_eq_true, if_false, true_and, getWebhook]
      induction rows with
      | nil => rfl
      | cons row rows ih =>
          rw [List.map_cons, List.find?_cons, List.find?_cons]
          have hsame : (if row.id = id' then fields.apply row updatedAt else row).id = row.id := by
            split
            · rfl
            · rfl
          rw [hsame]
          by_cases hid : row.id = id
          · simp [hid]
          · simpa [hid] using ih

/-- A statement inserts a row under a new id, or updates a stored row. -/
def Statement.Fits (rows : List RegistrationRow) : Statement → Prop
  | .insert row => getWebhook rows row.id = none
  | .update id _ _ => (getWebhook rows id).isSome = true

/-- The statement is issued, whatever the answer. -/
theorem answerAfter_snd (rows : List RegistrationRow) (statement : Statement) (id : String)
    (answer : RegistrationRow → ApiResponse) :
    (answerAfter rows statement id answer).2 = some statement := by
  unfold answerAfter
  split
  · rfl
  · rfl

/-- What holds of the answer with a row holds of the answer, if it holds without one. -/
theorem withWebhook_induction {P : ApiResponse × Option Statement → Prop}
    {answer : RegistrationRow → ApiResponse × Option Statement}
    (hmissing : getWebhook rows id = none → P (webhookNotFound, none))
    (hfound : ∀ row, getWebhook rows id = some row → P (answer row)) :
    P (withWebhook rows id answer) := by
  unfold withWebhook
  cases hrow : getWebhook rows id with
  | none => exact hmissing hrow
  | some row => exact hfound row hrow

/-- The statement of a request inserts a row under a new id, or updates a stored row. -/
theorem respond_fits : ∀ statement ∈ (respond validUrl rows now request).2,
    statement.Fits rows := by
  cases request with
  | register body uuid secret =>
      change ∀ statement ∈ (registerWebhook validUrl rows now body uuid secret).2, _
      unfold registerWebhook
      split
      · simp
      · split
        · simp
        · split
          · split
            · simp
            · rename_i hfree
              rw [answerAfter_snd]
              intro statement h
              rw [Option.mem_some_iff] at h
              rw [← h]
              simpa [Statement.Fits] using hfree
          · simp
  | list query => simp [respond]
  | get id =>
      apply withWebhook_induction (P := fun answer => ∀ statement ∈ answer.2, statement.Fits rows)
      · simp
      · simp
  | patch id body =>
      apply withWebhook_induction (P := fun answer => ∀ statement ∈ answer.2, statement.Fits rows)
      · simp
      · intro row hrow
        split
        · rw [answerAfter_snd]
          simp [Statement.Fits, hrow]
        · simp
  | rotateSecret id secret =>
      apply withWebhook_induction (P := fun answer => ∀ statement ∈ answer.2, statement.Fits rows)
      · simp
      · intro row hrow
        simp [Statement.Fits, hrow]
  | delete id =>
      apply withWebhook_induction (P := fun answer => ∀ statement ∈ answer.2, statement.Fits rows)
      · simp
      · intro row hrow
        simp [Statement.Fits, hrow]

/-! ## Columns -/

/-- Fields are empty when none is given. -/
theorem isEmpty_iff {fields : WebhookFields} :
    fields.isEmpty = true ↔ fields.url = none ∧ fields.secret = none ∧ fields.active = none := by
  simp [WebhookFields.isEmpty, and_assoc]

/-- A column of the registrations, with what an update gives for it. -/
structure Column (β : Type) where
  read : Webhook → β
  given : WebhookFields → Option β
  read_apply : ∀ fields row updatedAt, read (WebhookFields.apply fields row updatedAt).toWebhook =
    (given fields).getD (read row.toWebhook)
  given_of_empty : ∀ fields, WebhookFields.isEmpty fields = true → given fields = none

/-- The address of a webhook. -/
def urlColumn : Column String where
  read row := row.url
  given fields := fields.url
  read_apply _ _ _ := rfl
  given_of_empty _ h := (isEmpty_iff.mp h).1

/-- The secret of a webhook. -/
def secretColumn : Column String where
  read row := row.secret
  given fields := fields.secret
  read_apply _ _ _ := rfl
  given_of_empty _ h := (isEmpty_iff.mp h).2.1

/-- Whether a webhook is active. -/
def activeColumn : Column Bool where
  read row := row.active
  given fields := fields.active
  read_apply _ _ _ := rfl
  given_of_empty _ h := (isEmpty_iff.mp h).2.2

/-- No update changes the type of the events. -/
def eventTypeColumn : Column String where
  read row := row.eventType
  given _ := none
  read_apply _ _ _ := rfl
  given_of_empty _ _ := rfl

variable {β : Type} (c : Column β)

/-- The value of a column in the row under an id. -/
def Column.valueAt (id : String) (rows : List RegistrationRow) : Option β :=
  (getWebhook rows id).map fun row => c.read row.toWebhook

/-- What a statement writes to a column in the row under an id. -/
def Column.written (id : String) : Option Statement → Option β
  | none => none
  | some (.insert row) => if row.id = id then some (c.read row.toWebhook) else none
  | some (.update id' fields _) => if id = id' then c.given fields else none

/-- After a statement a column holds what it writes, or what was there. -/
theorem Column.valueAt_applyAny {statement : Option Statement}
    (hfits : ∀ st ∈ statement, st.Fits rows) (id : String) :
    c.valueAt id (applyAny rows statement) = (c.written id statement).or (c.valueAt id rows) := by
  cases statement with
  | none => rfl
  | some statement =>
      have hfit : statement.Fits rows := hfits statement rfl
      cases statement with
      | insert row =>
          rw [Column.valueAt, applyAny, Statement.apply, getWebhook_insert, Column.written]
          by_cases hid : row.id = id
          · subst hid
            rw [Statement.Fits] at hfit
            rw [if_pos rfl, if_pos rfl, hfit]
            rfl
          · rw [if_neg hid, if_neg hid, Option.or_none]
            rfl
      | update id' fields updatedAt =>
          rw [Column.valueAt, applyAny, Statement.apply, getWebhook_update, Column.written,
            Column.valueAt]
          by_cases hid : id = id'
          · subst hid
            rw [Statement.Fits, Option.isSome_iff_exists] at hfit
            rcases hfit with ⟨row, hrow⟩
            rw [hrow, if_pos rfl, Option.map_some, Option.map_some, Option.map_some]
            cases hempty : fields.isEmpty with
            | true =>
                rw [c.given_of_empty fields hempty]
                simp
            | false =>
                simp only [and_self, if_true, c.read_apply]
                cases c.given fields with
                | none => rfl
                | some b => rfl
          · simp only [hid, and_false, if_false, Option.map_map]
            rfl

/-! ## Secrets in responses -/

/-- The secret that a response holds under an id. -/
def ApiResponse.secretFor (id : String) (response : ApiResponse) : Option String :=
  response.body.bind fun body =>
    if textField "id" body = some id then textField "secret" body else none

/-- An error shows no secret. -/
theorem secretFor_error (status : Nat) (message : String) (id : String) :
    (ApiResponse.error status message).secretFor id = none := by
  simp [ApiResponse.secretFor, ApiResponse.error, textField, Json.field, List.lookup_cons]

/-- An exception shows no secret. -/
theorem secretFor_thrown (id : String) : ApiResponse.thrown.secretFor id = none :=
  rfl

/-- A shown registration holds no secret. -/
theorem secretFor_shown (status : Nat) (row : RegistrationRow) (id : String) :
    (ApiResponse.mk status (some (toResponse row))).secretFor id = none := by
  simp [ApiResponse.secretFor, textField, Json.field, toResponse, shownFields, List.lookup_cons]

/-- The response to a registration shows its secret. -/
theorem secretFor_registered (status : Nat) (row : RegistrationRow) (secret : String)
    (id : String) :
    (ApiResponse.mk status
        (some (.obj (shownFields row ++ [("secret", .str secret)])))).secretFor id =
      if row.id = id then some secret else none := by
  simp [ApiResponse.secretFor, textField, Json.field, shownFields, List.lookup_cons]

/-- The response to a rotation shows its secret. -/
theorem secretFor_rotated (id' secret : String) (id : String) :
    (ApiResponse.mk 200 (some (.obj [("id", .str id'), ("secret", .str secret)]))).secretFor id =
      if id' = id then some secret else none := by
  simp [ApiResponse.secretFor, textField, Json.field, List.lookup_cons]

/-- The response to a registration shows the secret that is written. -/
theorem secretFor_registerWebhook (validUrl : String → Bool) (rows : List RegistrationRow)
    (now : Int) (body : Json) (uuid secret : String) (id : String) :
    (registerWebhook validUrl rows now body uuid secret).1.secretFor id =
      secretColumn.written id (registerWebhook validUrl rows now body uuid secret).2 := by
  unfold registerWebhook
  split
  · exact secretFor_error _ _ id
  · split
    · exact secretFor_error _ _ id
    · split
      · split
        · exact secretFor_thrown id
        · rename_i hfree
          rw [Option.not_isSome_iff_eq_none] at hfree
          rw [answerAfter_snd, answerAfter, Statement.apply, getWebhook_insert, hfree,
            Option.none_or, if_pos rfl]
          exact secretFor_registered _ _ _ id
      · exact secretFor_error _ _ id

/-- The response to an update shows the secret that is written. -/
theorem secretFor_patchWebhook (validUrl : String → Bool) (rows : List RegistrationRow)
    (now : Int) (id' : String) (body : Json) (id : String) :
    (patchWebhook validUrl rows now id' body).1.secretFor id =
      secretColumn.written id (patchWebhook validUrl rows now id' body).2 := by
  apply withWebhook_induction
    (P := fun answer => answer.1.secretFor id = secretColumn.written id answer.2)
  · intro _
    exact secretFor_error _ _ id
  · intro row hrow
    split
    · rw [answerAfter_snd, answerAfter]
      have hnone : secretColumn.written id (some (.update id'
          { url := textField "url" body, active := boolField "active" body } now)) = none := by
        simp [Column.written, secretColumn]
      rw [hnone]
      split
      · exact secretFor_shown _ _ id
      · exact secretFor_thrown id
    · exact secretFor_error _ _ id

/-- The secret that a response holds is the one that its statement writes. -/
theorem secretFor_respond (validUrl : String → Bool) (rows : List RegistrationRow) (now : Int)
    (request : ApiRequest) (id : String) :
    (respond validUrl rows now request).1.secretFor id =
      secretColumn.written id (respond validUrl rows now request).2 := by
  cases request with
  | register body uuid secret =>
      exact secretFor_registerWebhook validUrl rows now body uuid secret id
  | list query => simp [respond, ApiResponse.secretFor, textField, Json.field, List.lookup_cons,
      Column.written]
  | get id' =>
      apply withWebhook_induction
        (P := fun answer => answer.1.secretFor id = secretColumn.written id answer.2)
      · intro _
        exact secretFor_error _ _ id
      · intro row hrow
        exact secretFor_shown _ _ id
  | patch id' body => exact secretFor_patchWebhook validUrl rows now id' body id
  | rotateSecret id' secret =>
      apply withWebhook_induction
        (P := fun answer => answer.1.secretFor id = secretColumn.written id answer.2)
      · intro _
        exact secretFor_error _ _ id
      · intro row hrow
        rw [secretFor_rotated]
        simp only [Column.written, secretColumn, eq_comm]
  | delete id' =>
      apply withWebhook_induction
        (P := fun answer => answer.1.secretFor id = secretColumn.written id answer.2)
      · intro _
        exact secretFor_error _ _ id
      · intro row hrow
        simp [ApiResponse.secretFor, Column.written, secretColumn]

/-! ## The API and the delivery service -/

/-- The API and the delivery service on one database. -/
structure World where
  rows : List RegistrationRow
  service : State
  shared : service.db.webhooks = rows.map RegistrationRow.toWebhook

/-- No registrations, and an idle service. -/
def World.initial : World := ⟨[], .initial, rfl⟩

/-- Write the registrations into both. -/
def World.withRows (w : World) (rows : List RegistrationRow) : World :=
  ⟨rows, w.service.withDb { w.service.db with webhooks := rows.map RegistrationRow.toWebhook }, rfl⟩

/-- What happens beside the API. -/
inductive Background where
  | drain (elapsed : Nat) (query : DeliveryQuery)
  | report (outcome : Outcome)
  | restart
  | insertIndexedEventIfAbsent (ev : RpcEvent) (indexedAt : Int)
  | insertWebhookDelivery (webhook : WebhookRegistrationRow) (eventId : Nat) (indexedAt : Int)

/-- The input of the service. -/
def Background.input : Background → Input
  | .drain elapsed query => .drain elapsed query
  | .report outcome => .report outcome
  | .restart => .restart
  | .insertIndexedEventIfAbsent ev indexedAt => .insertIndexedEventIfAbsent ev indexedAt
  | .insertWebhookDelivery webhook eventId indexedAt =>
      .insertWebhookDelivery webhook eventId indexedAt

/-- A request to the API, or something beside it. -/
inductive Action where
  | request (request : ApiRequest)
  | background (b : Background)

section

variable {rt : Runtime} {options : WebhookDeliveryOptions} {s : State}

/-- Going on with a drain leaves the webhooks alone. -/
theorem resume_webhooks (rt : Runtime) (now : Int) (queue : List Delivery) (s : State) :
    (resume rt now queue s).db.webhooks = s.db.webhooks := by
  apply resume_ensures (P := fun t _ => t.db.webhooks = s.db.webhooks)
    (Q := fun t => t.db.webhooks = s.db.webhooks)
  · intro t h
    exact h
  · intro t row queue message h _
    exact h
  · intro t row queue webhook event h _ _
    exact h
  · intro t row queue webhook event data h _ _
    exact h
  · rfl

/-- Settling a delivery leaves the webhooks alone. -/
theorem settle_webhooks (db : Db) (options : WebhookDeliveryOptions) (now : Int)
    (delivery : Delivery) (outcome : Outcome) :
    (db.settle options now delivery outcome).webhooks = db.webhooks := by
  cases outcome with
  | response status ok =>
      cases ok with
      | true => rfl
      | false => rfl
  | exception message => rfl

/-- Nothing beside the API changes the registrations. -/
theorem step_webhooks (rt : Runtime) (options : WebhookDeliveryOptions) (s : State)
    (b : Background) : (step rt options s b.input).db.webhooks = s.db.webhooks := by
  cases b with
  | drain elapsed query =>
      rw [Background.input, step]
      split
      · exact resume_webhooks _ _ _ _
      · rfl
  | report outcome =>
      rw [Background.input, step]
      split
      · rfl
      · rw [resume_webhooks, withDb_db, settle_webhooks]
  | restart => rfl
  | insertIndexedEventIfAbsent ev indexedAt =>
      change (s.db.insertIndexedEventIfAbsent rt.toRuntime ev indexedAt).webhooks = s.db.webhooks
      unfold Db.insertIndexedEventIfAbsent
      split
      · rfl
      · rfl
  | insertWebhookDelivery webhook eventId indexedAt => rfl

end

variable (validUrl : String → Bool) (rt : Runtime) (options : WebhookDeliveryOptions)

/-- One step of the API and of what goes on beside it. -/
def advance (w : World) : Action → World
  | .request request =>
      w.withRows (applyAny w.rows (respond validUrl w.rows w.service.clock request).2)
  | .background b =>
      ⟨w.rows, step rt options w.service b.input,
        (step_webhooks rt options w.service b).trans w.shared⟩

/-- The inputs of the delivery service that an action stands for. -/
def Action.inputs (w : World) : Action → List Input
  | .request request =>
      match (respond validUrl w.rows w.service.clock request).2 with
      | none => []
      | some (.insert row) => [.insertWebhook row.toWebhook]
      | some (.update id fields _) =>
          [.updateWebhook id fields.url fields.secret fields.active]
  | .background b => [b.input]

/-- An update of a registration is one of its webhook. -/
theorem webhooks_update (rows : List RegistrationRow) (id : String) (fields : WebhookFields)
    (updatedAt : Int) :
    (updateWebhook rows id fields updatedAt).map RegistrationRow.toWebhook =
      (rows.map RegistrationRow.toWebhook).map fun row =>
        if row.id = id then
          { row with
            url := fields.url.getD row.url
            secret := fields.secret.getD row.secret
            active := fields.active.getD row.active }
        else row := by
  rw [List.map_map]
  unfold updateWebhook
  split
  · rename_i hempty
    rcases isEmpty_iff.mp hempty with ⟨hurl, hsecret, hactive⟩
    refine List.map_congr_left fun row _ => ?_
    rw [hurl, hsecret, hactive]
    simp
  · rw [List.map_map]
    refine List.map_congr_left fun row _ => ?_
    simp only [Function.comp_apply]
    split
    · rfl
    · rfl

/-- Whatever happens is a series of inputs of the delivery service. -/
theorem advance_inputs (w : World) (a : Action) :
    (advance validUrl rt options w a).service =
      Run.final (step rt options) w.service (a.inputs validUrl w) := by
  cases a with
  | background b => rfl
  | request request =>
      rw [advance, Action.inputs]
      cases (respond validUrl w.rows w.service.clock request).2 with
      | none =>
          change w.service.withDb { w.service.db with webhooks := w.rows.map _ } = w.service
          rw [← w.shared]
          rfl
      | some statement =>
          cases statement with
          | insert row =>
              change w.service.withDb { w.service.db with webhooks := (w.rows ++ [row]).map _ } =
                w.service.withDb { w.service.db with
                  webhooks := w.service.db.webhooks ++ [row.toWebhook] }
              rw [List.map_append, ← w.shared]
              rfl
          | update id fields updatedAt =>
              change w.service.withDb { w.service.db with
                webhooks := (updateWebhook w.rows id fields updatedAt).map _ } =
                  w.service.withDb (w.service.db.updateWebhook id fields.url fields.secret
                    fields.active)
              rw [webhooks_update, ← w.shared]
              rfl

end WebhookDelivery
end Kraal
