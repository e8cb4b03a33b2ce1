import TinyAutomator.Workflows.Written

/-! The Google connection of a user: tokens are stored encrypted, one row for each user and
provider, and renewed through the token source. -/
namespace TinyAutomator.Integrations

open Workflows (wrap wrap_ok)

/-- A Go string of any bytes, as tokens are. -/
abbrev Bytes := List UInt8

/-- `gcm.NonceSize()`. -/
def nonceSize : Nat := 12

structure Nonce where
  bytes : Bytes
  size : bytes.length = nonceSize

/-- AES-GCM, base64 and hex. -/
structure Crypto where
  decodeHex : String → Except String Bytes
  gcmSeal (key nonce plaintext : Bytes) : Bytes
  gcmOpen (key nonce ciphertext : Bytes) : Except String Bytes
  encodeToString : Bytes → String
  decodeString : String → Except String Bytes

/-- `aes.NewCipher` takes keys of three sizes. -/
def newCipher (key : Bytes) : Except String Unit :=
  if key.length = 16 ∨ key.length = 24 ∨ key.length = 32 then .ok ()
  else .error s!"crypto/aes: invalid key size {key.length}"

/-- What the service relies on, with the key it is configured with. -/
structure Crypto.Laws (c : Crypto) (tokenEncryptionKey : String) : Prop where
  key : ∃ key, c.decodeHex tokenEncryptionKey = .ok key ∧ newCipher key = .ok ()
  open_seal : ∀ key nonce plaintext, c.gcmOpen key nonce (c.gcmSeal key nonce plaintext) = .ok plaintext
  decode_encode : ∀ bytes, c.decodeString (c.encodeToString bytes) = .ok bytes
  nonempty : ∀ bytes, bytes ≠ [] → c.encodeToString bytes ≠ ""

structure Token where
  accessToken : Bytes
  refreshToken : Bytes
  expiry : Int
  deriving DecidableEq

structure OauthIntegration where
  id : Nat
  userID : UserID
  provider : String
  providerUserID : String
  accessToken : String
  refreshToken : String
  expiresAt : Int
  scopes : String
  createdAt : Int
  updatedAt : Int
  deriving DecidableEq

/-- The oauth_integration table with its UNIQUE constraint. -/
structure Table where
  rows : List OauthIntegration
  nextID : Nat
  unique : (rows.map fun row => (row.userID,row.provider)).Nodup
  fresh : ∀ row ∈ rows, row.id < nextID

def Table.empty : Table := ⟨[],1,List.nodup_nil,by simp⟩

section Repository

/-- The lengths of the two VARCHAR columns. -/
def Fits (provider providerUserID : String) : Prop := provider.length ≤ 50 ∧ providerUserID.length ≤ 255

instance (provider providerUserID : String) : Decidable (Fits provider providerUserID) :=
  inferInstanceAs (Decidable (provider.length ≤ 50 ∧ providerUserID.length ≤ 255))

def Table.create (t : Table) (o : OauthIntegration) : Except String Table :=
  if ¬Fits o.provider o.providerUserID then
    .error "failed to create oauth integration: value too long for type character varying"
  else if taken : (o.userID,o.provider) ∈ t.rows.map fun row => (row.userID,row.provider) then
    .error "failed to create oauth integration: duplicate key value violates unique constraint"
  else .ok {
    rows := t.rows ++ [{ o with id := t.nextID }]
    nextID := t.nextID + 1
    unique := by
      rw [List.map_append,List.nodup_append]
      refine ⟨t.unique,List.nodup_singleton _,?_⟩
      rintro a member b new rfl
      obtain rfl : a = (o.userID,o.provider) := List.mem_singleton.mp new
      exact taken member
    fresh := by
      intro row member
      rcases List.mem_append.mp member with old | new
      · exact Nat.lt_succ_of_lt (t.fresh row old)
      · exact List.mem_singleton.mp new ▸ Nat.lt_succ_self _ }

def Table.getByUserID (t : Table) (userID : UserID) : List OauthIntegration :=
  (t.rows.filter fun row => row.userID = userID).mergeSort fun a b => decide (b.createdAt ≤ a.createdAt)

/-- The UPDATE of the row with an id. -/
def Table.update (t : Table) (o : OauthIntegration) : Except String Table :=
  let change := fun row : OauthIntegration =>
    if row.id = o.id then { row with
      accessToken := o.accessToken, refreshToken := o.refreshToken, expiresAt := o.expiresAt
      scopes := o.scopes, updatedAt := o.updatedAt } else row
  have kept : ∀ row, (change row).id = row.id ∧ (change row).userID = row.userID ∧
      (change row).provider = row.provider := by
    intro row
    by_cases same : row.id = o.id <;> simp [change,same]
  if o.id ∈ t.rows.map (·.id) then .ok {
    rows := t.rows.map change
    nextID := t.nextID
    unique := by
      have same : (t.rows.map change).map (fun row => (row.userID,row.provider)) =
          t.rows.map fun row => (row.userID,row.provider) := by
        rw [List.map_map]
        exact List.map_congr_left fun row _ => Prod.ext (kept row).2.1 (kept row).2.2
      rw [same]
      exact t.unique
    fresh := by
      intro row member
      obtain ⟨old,stored,rfl⟩ := List.mem_map.mp member
      exact (kept old).1 ▸ t.fresh old stored }
  else .error "failed to update oauth integration: no rows in result set"

end Repository

section Service

/-- The service with its configuration. -/
structure OauthIntegrationService where
  crypto : Crypto
  tokenEncryptionKey : String
  scopes : List String

variable (svc : OauthIntegrationService)

def OauthIntegrationService.encrypt (nonce : Nonce) (plaintext : Bytes) : Except String String :=
  if plaintext = [] then .ok ""
  else do
    let key ← wrap "failed to decode token encryption key: " (svc.crypto.decodeHex svc.tokenEncryptionKey)
    wrap "failed to create AES cipher: " (newCipher key)
    return svc.crypto.encodeToString (nonce.bytes ++ svc.crypto.gcmSeal key nonce.bytes plaintext)

def OauthIntegrationService.decrypt (base64CiphertextWithNonce : String) : Except String Bytes :=
  if base64CiphertextWithNonce = "" then .ok []
  else do
    let ciphertextWithNonce ← wrap "failed to base64 decode: " (svc.crypto.decodeString base64CiphertextWithNonce)
    let key ← wrap "failed to decode token encryption key: " (svc.crypto.decodeHex svc.tokenEncryptionKey)
    wrap "failed to create AES cipher for decryption: " (newCipher key)
    if ciphertextWithNonce.length < nonceSize then .error "ciphertext is too short to contain nonce"
    else
      wrap "failed to decrypt (authentication failed): "
        (svc.crypto.gcmOpen key (ciphertextWithNonce.take nonceSize) (ciphertextWithNonce.drop nonceSize))

/-- The row that GetToken finds, and the token that it presents to the token source. -/
def OauthIntegrationService.present (userID : UserID) (provider : String) (t : Table) :
    Except String (OauthIntegration × Token) :=
  match (t.getByUserID userID).find? fun record => record.provider = provider with
  | none => .error s!"no oauth integration found for provider: {provider}"
  | some record => do
    let accessToken ← wrap s!"failed to decrypt access token for provider {provider}: "
      (svc.decrypt record.accessToken)
    let refreshToken ← (if record.refreshToken ≠ "" then
      wrap s!"failed to decrypt refresh token for provider {provider}: " (svc.decrypt record.refreshToken)
      else .ok [])
    return (record,⟨accessToken,refreshToken,record.expiresAt⟩)

/-- Two nonces and the clock, for the two encryptions and the timestamps of a call. -/
structure Draw where
  access : Nonce
  refresh : Nonce
  now : Int

def OauthIntegrationService.updateToken (draw : Draw) (id : Nat) (token : Token) (t : Table) :
    Except String Table := do
  let accessToken ← wrap s!"failed to encrypt access token for oauth integration {id}: "
    (svc.encrypt draw.access token.accessToken)
  let refreshToken ← (if token.refreshToken ≠ [] then
    wrap s!"failed to encrypt refresh token for oauth integration {id}: "
      (svc.encrypt draw.refresh token.refreshToken)
    else .ok "")
  wrap "failed to update oauth integration: " (t.update {
    id, userID := "", provider := "", providerUserID := "", accessToken, refreshToken
    expiresAt := token.expiry, scopes := String.intercalate "," svc.scopes
    createdAt := 0, updatedAt := draw.now })

def OauthIntegrationService.getToken (source : Token → Except String Token) (draw : Draw)
    (userID : UserID) (provider : String) (t : Table) : Table × Except String Token :=
  match svc.present userID provider t with
  | .error err => (t,.error err)
  | .ok (record,presented) =>
    match source presented with
    | .error err => (t,.error ("failed to get token: " ++ err))
    | .ok refreshedToken =>
      if refreshedToken.accessToken ≠ presented.accessToken ∨
          refreshedToken.refreshToken ≠ [] ∧ refreshedToken.refreshToken ≠ presented.refreshToken then
        match svc.updateToken draw record.id refreshedToken t with
        | .error err => (t,.error ("failed to update token: " ++ err))
        | .ok t => (t,.ok refreshedToken)
      else (t,.ok refreshedToken)

def OauthIntegrationService.storeToken (draw : Draw) (userID : UserID) (provider providerUserID : String)
    (token : Token) (t : Table) : Except String Table := do
  let accessToken ← wrap s!"failed to encrypt access token for user {userID}: "
    (svc.encrypt draw.access token.accessToken)
  let refreshToken ← (if token.refreshToken ≠ [] then
    wrap s!"failed to encrypt refresh token for user {userID}: " (svc.encrypt draw.refresh token.refreshToken)
    else .ok "")
  wrap "failed to create oauth integration: " (t.create {
    id := 0, userID, provider, providerUserID, accessToken, refreshToken, expiresAt := token.expiry
    scopes := String.intercalate "," svc.scopes, createdAt := draw.now, updatedAt := draw.now })

end Service

section Runs

/-- A completed consent, or a read with what the token source answers. -/
inductive Op where
  | consent (draw : Draw) (providerUserID : String) (token : Token)
  | read (draw : Draw) (answer : Except String Token)

/-- The latest access and refresh token of a connection. -/
abbrev Latest := Option (Bytes × Bytes)

/-- A refresh without a refresh token keeps the previous one. -/
def renewed : Latest → Except String Token → Latest
  | some (_,refresh), .ok token =>
    some (token.accessToken,if token.refreshToken = [] then refresh else token.refreshToken)
  | latest, _ => latest

variable (svc : OauthIntegrationService) (userID : UserID) (provider : String)

/-- A read would present the latest tokens. -/
def Presents (t : Table) (latest : Latest) : Prop := ∀ access refresh, latest = some (access,refresh) →
  ∃ record expiry, svc.present userID provider t = .ok (record,⟨access,refresh,expiry⟩)

/-- Each consent is stored, and whenever a read follows it presents the latest tokens. -/
def Renewable : Table → Latest → List Op → Prop
  | t, latest, [] => Presents svc userID provider t latest
  | t, latest, .consent draw providerUserID token :: rest => Presents svc userID provider t latest ∧
    ∃ u, svc.storeToken draw userID provider providerUserID token t = .ok u ∧
      Renewable u (some (token.accessToken,token.refreshToken)) rest
  | t, latest, .read draw answer :: rest => Presents svc userID provider t latest ∧
    Renewable (svc.getToken (fun _ => answer) draw userID provider t).1 (renewed latest answer) rest

/-- A refresh loses no refresh token: with a new access token comes a refresh token, or
there was none before. -/
def KeepsRefresh : Latest → Except String Token → Prop
  | some (access,refresh), .ok token =>
    token.accessToken ≠ access → token.refreshToken = [] → refresh = []
  | _, _ => True

/-- There is one consent at most, and no refresh loses a refresh token. -/
def Unbroken : Latest → List Op → Prop
  | _, [] => True
  | latest, .consent _ providerUserID token :: rest => latest = none ∧ Fits provider providerUserID ∧
    Unbroken (some (token.accessToken,token.refreshToken)) rest
  | latest, .read _ answer :: rest => KeepsRefresh latest answer ∧ Unbroken (renewed latest answer) rest

/-- The row of the connection, if there is one, decrypts to the latest tokens. -/
def Connected (t : Table) : Latest → Prop
  | none => ∀ row ∈ t.rows, ¬(row.userID = userID ∧ row.provider = provider)
  | some (access,refresh) => ∃ row ∈ t.rows, row.userID = userID ∧ row.provider = provider ∧
    svc.decrypt row.accessToken = .ok access ∧ svc.decrypt row.refreshToken = .ok refresh

end Runs

section Tables

variable {t u : Table} {o row : OauthIntegration} {userID : UserID} {provider : String}

theorem Table.create_iff : (∃ u, t.create o = .ok u) ↔ Fits o.provider o.providerUserID ∧
    ∀ row ∈ t.rows, ¬(row.userID = o.userID ∧ row.provider = o.provider) := by
  have taken : (o.userID,o.provider) ∈ t.rows.map (fun row => (row.userID,row.provider)) ↔
      ¬∀ row ∈ t.rows, ¬(row.userID = o.userID ∧ row.provider = o.provider) := by
    simp only [List.mem_map,Prod.mk.injEq,not_forall,not_not,exists_prop]
  unfold Table.create
  by_cases fits : Fits o.provider o.providerUserID
  · rw [if_neg (not_not.mpr fits)]
    by_cases free : ∀ row ∈ t.rows, ¬(row.userID = o.userID ∧ row.provider = o.provider)
    · refine iff_of_true ?_ ⟨fits,free⟩
      rw [dif_neg (mt taken.mp (not_not.mpr free))]
      exact ⟨_,rfl⟩
    · refine iff_of_false ?_ fun both => free both.2
      rw [dif_pos (taken.mpr free)]
      simp
  · rw [if_pos fits]
    simp [fits]

theorem Table.create_rows (created : t.create o = .ok u) : u.rows = t.rows ++ [{ o with id := t.nextID }] := by
  unfold Table.create at created
  split at created
  next => contradiction
  next =>
    split at created
    next => contradiction
    next => cases created; rfl

/-- A user's rows, newest first, hold the row of a provider at most once. -/
theorem Table.find_iff : ((t.getByUserID userID).find? fun record => record.provider = provider) = some row ↔
    row ∈ t.rows ∧ row.userID = userID ∧ row.provider = provider := by
  have listed : ∀ r, r ∈ t.getByUserID userID ↔ r ∈ t.rows ∧ r.userID = userID := by
    intro r
    rw [Table.getByUserID,List.mem_mergeSort,List.mem_filter,decide_eq_true_iff]
  constructor
  · intro found
    obtain ⟨stored,own⟩ := (listed row).mp (List.mem_of_find?_eq_some found)
    have its := List.find?_some found
    exact ⟨stored,own,by simpa using its⟩
  · rintro ⟨stored,own,its⟩
    have some_ : ((t.getByUserID userID).find? fun record => record.provider = provider).isSome := by
      rw [List.find?_isSome]
      exact ⟨row,(listed row).mpr ⟨stored,own⟩,decide_eq_true its⟩
    obtain ⟨other,found⟩ := Option.isSome_iff_exists.mp some_
    obtain ⟨stored',own'⟩ := (listed other).mp (List.mem_of_find?_eq_some found)
    have its' := List.find?_some found
    have its' : other.provider = provider := by simpa using its'
    rw [found,List.inj_on_of_nodup_map t.unique stored' stored
      (Prod.ext (own'.trans own.symm) (its'.trans its.symm))]

theorem Table.find_none : ((t.getByUserID userID).find? fun record => record.provider = provider) = none ↔
    ∀ row ∈ t.rows, ¬(row.userID = userID ∧ row.provider = provider) := by
  constructor
  · rintro none_ row stored ⟨own,its⟩
    rw [Table.find_iff.mpr ⟨stored,own,its⟩] at none_
    contradiction
  · intro absent
    cases found : (t.getByUserID userID).find? fun record => record.provider = provider with
    | none => rfl
    | some row =>
      obtain ⟨stored,own,its⟩ := Table.find_iff.mp found
      exact absurd ⟨own,its⟩ (absent row stored)

theorem Table.update_stored (stored : row ∈ t.rows) (same : row.id = o.id) : ∃ u, t.update o = .ok u ∧
    { row with
      accessToken := o.accessToken, refreshToken := o.refreshToken, expiresAt := o.expiresAt
      scopes := o.scopes, updatedAt := o.updatedAt } ∈ u.rows := by
  have member : o.id ∈ t.rows.map (·.id) := same ▸ List.mem_map_of_mem stored
  unfold Table.update
  rw [if_pos member]
  exact ⟨_,rfl,List.mem_map.mpr ⟨row,stored,if_pos same⟩⟩

end Tables

section Tokens

variable {svc : OauthIntegrationService} {userID : UserID} {provider providerUserID : String} {t u : Table}
  {draw : Draw} {nonce : Nonce} {plaintext access refresh : Bytes} {token : Token} {text : String}
  {row : OauthIntegration} {latest : Latest} {answer : Except String Token}

theorem decrypt_encrypt (laws : svc.crypto.Laws svc.tokenEncryptionKey) (nonce : Nonce) (plaintext : Bytes) :
    ∃ text, svc.encrypt nonce plaintext = .ok text ∧ svc.decrypt text = .ok plaintext ∧
      (text = "" ↔ plaintext = []) := by
  obtain ⟨key,decoded,accepted⟩ := laws.key
  by_cases empty : plaintext = []
  · exact ⟨"",by rw [OauthIntegrationService.encrypt,if_pos empty],by rw [empty]; rfl,by simp [empty]⟩
  · have some_ : nonce.bytes ++ svc.crypto.gcmSeal key nonce.bytes plaintext ≠ [] := by
      intro none_
      have size := nonce.size
      rw [(List.append_eq_nil_iff.mp none_).1] at size
      contradiction
    have full := laws.nonempty _ some_
    refine ⟨svc.crypto.encodeToString (nonce.bytes ++ svc.crypto.gcmSeal key nonce.bytes plaintext),?_,?_,?_⟩
    · simp only [OauthIntegrationService.encrypt,if_neg empty,decoded,accepted,wrap,bind,Except.bind]
      rfl
    · have whole : ¬(nonce.bytes ++ svc.crypto.gcmSeal key nonce.bytes plaintext).length < nonceSize := by
        rw [List.length_append,nonce.size]
        omega
      have head : (nonce.bytes ++ svc.crypto.gcmSeal key nonce.bytes plaintext).take nonceSize = nonce.bytes := by
        rw [← nonce.size,List.take_left]
      have tail : (nonce.bytes ++ svc.crypto.gcmSeal key nonce.bytes plaintext).drop nonceSize =
          svc.crypto.gcmSeal key nonce.bytes plaintext := by
        rw [← nonce.size,List.drop_left]
      simp only [OauthIntegrationService.decrypt,if_neg full,laws.decode_encode,decoded,accepted,wrap,bind,
        Except.bind,if_neg whole,head,tail,laws.open_seal]
    · exact iff_of_false full empty

/-- Both tokens of a call are encrypted, an empty refresh token as the empty string. -/
theorem encrypt_refresh (laws : svc.crypto.Laws svc.tokenEncryptionKey) (nonce : Nonce) (plaintext : Bytes)
    (context : String) : ∃ text, (if plaintext ≠ [] then wrap context (svc.encrypt nonce plaintext)
      else .ok "") = .ok text ∧ svc.decrypt text = .ok plaintext := by
  obtain ⟨text,encrypted,decrypted,_⟩ := decrypt_encrypt laws nonce plaintext
  by_cases empty : plaintext = []
  · exact ⟨"",by rw [if_neg (not_not.mpr empty)],by rw [empty]; rfl⟩
  · exact ⟨text,by rw [if_pos empty,wrap_ok,encrypted],decrypted⟩

theorem present_iff (stored : row ∈ t.rows) (own : row.userID = userID) (its : row.provider = provider)
    (decrypted : svc.decrypt row.accessToken = .ok access)
    (decrypted' : svc.decrypt row.refreshToken = .ok refresh) :
    svc.present userID provider t = .ok (row,⟨access,refresh,row.expiresAt⟩) := by
  rw [OauthIntegrationService.present,Table.find_iff.mpr ⟨stored,own,its⟩]
  by_cases empty : row.refreshToken = ""
  · have none_ : refresh = [] := by
      rw [empty] at decrypted'
      cases decrypted'
      rfl
    simp only [decrypted,empty,none_,wrap,bind,Except.bind,ne_eq,not_true_eq_false,if_false]
    rfl
  · simp only [decrypted,decrypted',wrap,bind,Except.bind,ne_eq,empty,not_false_eq_true,if_true]
    rfl

theorem Connected.presents (connected : Connected svc userID provider t latest) :
    Presents svc userID provider t latest := by
  rintro access refresh rfl
  obtain ⟨row,stored,own,its,decrypted,decrypted'⟩ := connected
  exact ⟨row,row.expiresAt,present_iff stored own its decrypted decrypted'⟩

/-- A consent is stored exactly when there was none before and the columns hold it. -/
theorem storeToken_iff (laws : svc.crypto.Laws svc.tokenEncryptionKey)
    (connected : Connected svc userID provider t latest) :
    ((∃ u, svc.storeToken draw userID provider providerUserID token t = .ok u) ↔
      latest = none ∧ Fits provider providerUserID) ∧
    ∀ u, svc.storeToken draw userID provider providerUserID token t = .ok u →
      Connected svc userID provider u (some (token.accessToken,token.refreshToken)) := by
  obtain ⟨accessToken,first,decrypted,_⟩ := decrypt_encrypt laws draw.access token.accessToken
  obtain ⟨refreshToken,second,decrypted'⟩ := encrypt_refresh laws draw.refresh token.refreshToken
    s!"failed to encrypt refresh token for user {userID}: "
  have stores : svc.storeToken draw userID provider providerUserID token t =
      wrap "failed to create oauth integration: " (t.create {
        id := 0, userID, provider, providerUserID, accessToken, refreshToken, expiresAt := token.expiry
        scopes := String.intercalate "," svc.scopes, createdAt := draw.now, updatedAt := draw.now }) := by
    rw [OauthIntegrationService.storeToken,first,second]
    rfl
  rw [stores]
  constructor
  · simp only [wrap_ok]
    rw [Table.create_iff]
    cases latest with
    | none => exact ⟨fun both => ⟨rfl,both.1⟩,fun both => ⟨both.2,connected⟩⟩
    | some tokens =>
      obtain ⟨row,stored,own,its,_⟩ := connected
      exact iff_of_false (fun both => both.2 row stored ⟨own,its⟩) (fun both => nomatch both.1)
  · intro u created
    have rows := Table.create_rows (wrap_ok.mp created)
    exact ⟨_,rows ▸ List.mem_append_right _ (List.mem_singleton_self _),rfl,rfl,decrypted,decrypted'⟩

theorem updateToken_connected (laws : svc.crypto.Laws svc.tokenEncryptionKey) (stored : row ∈ t.rows)
    (own : row.userID = userID) (its : row.provider = provider) :
    ∃ u, svc.updateToken draw row.id token t = .ok u ∧
      Connected svc userID provider u (some (token.accessToken,token.refreshToken)) := by
  obtain ⟨accessToken,first,decrypted,_⟩ := decrypt_encrypt laws draw.access token.accessToken
  obtain ⟨refreshToken,second,decrypted'⟩ := encrypt_refresh laws draw.refresh token.refreshToken
    s!"failed to encrypt refresh token for oauth integration {row.id}: "
  obtain ⟨u,updated,member⟩ := @Table.update_stored t {
    id := row.id, userID := "", provider := "", providerUserID := "", accessToken, refreshToken
    expiresAt := token.expiry, scopes := String.intercalate "," svc.scopes
    createdAt := 0, updatedAt := draw.now } row stored rfl
  refine ⟨u,?_,_,member,own,its,decrypted,decrypted'⟩
  rw [OauthIntegrationService.updateToken,first,second]
  exact wrap_ok.mpr updated

/-- A read of a connection renews it, and keeps its refresh token exactly when the refresh
does. -/
theorem getToken_connected (laws : svc.crypto.Laws svc.tokenEncryptionKey)
    (connected : Connected svc userID provider t latest) :
    (KeepsRefresh latest answer → Connected svc userID provider
      (svc.getToken (fun _ => answer) draw userID provider t).1 (renewed latest answer)) ∧
    (Presents svc userID provider (svc.getToken (fun _ => answer) draw userID provider t).1
      (renewed latest answer) → KeepsRefresh latest answer) := by
  cases latest with
  | none =>
    have absent := Table.find_none.mpr connected
    have kept : (svc.getToken (fun _ => answer) draw userID provider t).1 = t := by
      rw [OauthIntegrationService.getToken,OauthIntegrationService.present,absent]
    rw [kept]
    exact ⟨fun _ => connected,fun _ => trivial⟩
  | some tokens =>
    obtain ⟨access,refresh⟩ := tokens
    obtain ⟨row,stored,own,its,decrypted,decrypted'⟩ := id connected
    have presented := present_iff stored own its decrypted decrypted'
    rw [OauthIntegrationService.getToken,presented]
    cases answer with
    | error err => exact ⟨fun _ => connected,fun _ => trivial⟩
    | ok token =>
      dsimp only
      split
      next differs =>
        obtain ⟨u,updated,connected'⟩ := @updateToken_connected svc userID provider t draw token row laws
          stored own its
        rw [updated]
        dsimp only
        by_cases bare : token.refreshToken = []
        · constructor
          · intro keeps
            have changes : token.accessToken ≠ access := by
              rcases differs with changes | ⟨some_,_⟩
              · exact changes
              · exact absurd bare some_
            rw [renewed,if_pos bare,keeps changes bare,← bare]
            exact connected'
          · intro presents _ _
            obtain ⟨_,_,found⟩ := presents token.accessToken refresh (by rw [renewed,if_pos bare])
            obtain ⟨_,_,found'⟩ := connected'.presents token.accessToken token.refreshToken rfl
            rw [found'] at found
            simp only [Except.ok.injEq,Prod.mk.injEq,Token.mk.injEq] at found
            rw [← found.2.2.1,bare]
        · refine ⟨fun _ => ?_,fun _ _ empty => absurd empty bare⟩
          rw [renewed,if_neg bare]
          exact connected'
      next same =>
        simp only [not_or,not_and,not_not,ne_eq] at same
        obtain ⟨access_,refresh_⟩ := same
        refine ⟨fun _ => ?_,fun _ changes => absurd access_ changes⟩
        by_cases bare : token.refreshToken = []
        · rw [renewed,if_pos bare,access_]
          exact connected
        · rw [renewed,if_neg bare,access_,refresh_ bare]
          exact connected

theorem Renewable.presents {ops : List Op} (renewable : Renewable svc userID provider t latest ops) :
    Presents svc userID provider t latest := by
  cases ops with
  | nil => exact renewable
  | cons op rest => cases op <;> exact renewable.1

/-- From a row that holds the latest tokens, a history renews the connection exactly when
it has no further consent and loses no refresh token. -/
theorem renewable_connected (laws : svc.crypto.Laws svc.tokenEncryptionKey)
    (connected : Connected svc userID provider t latest) (ops : List Op) :
    Renewable svc userID provider t latest ops ↔ Unbroken provider latest ops := by
  induction ops generalizing t latest with
  | nil => exact iff_of_true connected.presents trivial
  | cons op rest ih =>
    cases op with
    | consent draw providerUserID token =>
      obtain ⟨stores,connected'⟩ := @storeToken_iff svc userID provider providerUserID t draw token latest
        laws connected
      constructor
      · rintro ⟨_,u,stored,later⟩
        obtain ⟨first,fits⟩ := stores.mp ⟨u,stored⟩
        exact ⟨first,fits,(ih (connected' u stored)).mp later⟩
      · rintro ⟨first,fits,later⟩
        obtain ⟨u,stored⟩ := stores.mpr ⟨first,fits⟩
        exact ⟨connected.presents,u,stored,(ih (connected' u stored)).mpr later⟩
    | read draw answer =>
      obtain ⟨keeps,presents⟩ := @getToken_connected svc userID provider t draw latest answer laws connected
      constructor
      · rintro ⟨_,later⟩
        have kept := presents later.presents
        exact ⟨kept,(ih (keeps kept)).mp later⟩
      · rintro ⟨kept,later⟩
        exact ⟨connected.presents,(ih (keeps kept)).mpr later⟩

/-- From no row on, a history of consents and reads renews the connection exactly when it is
unbroken. -/
theorem renewable_iff (svc : OauthIntegrationService) (laws : svc.crypto.Laws svc.tokenEncryptionKey)
    (userID : UserID) (provider : String) (t : Table)
    (absent : ∀ row ∈ t.rows, ¬(row.userID = userID ∧ row.provider = provider)) (ops : List Op) :
    Renewable svc userID provider t none ops ↔ Unbroken provider none ops := by
  have connected : Connected svc userID provider t none := absent
  exact renewable_connected laws connected ops

end Tokens

section Histories

def zeroNonce : Nonce := ⟨List.replicate 12 0,rfl⟩

def draw : Draw := ⟨zeroNonce,zeroNonce,0⟩

/-- Two access tokens and a refresh token under the key 0, 1, ..., 31 and the zero nonce:
plaintext, ciphertext with its tag, and the base64 text of nonce and ciphertext. -/
def vectors : List (Bytes × Bytes × String) := [
  ([97,49],[111,141,6,25,215,70,213,26,240,63,162,47,11,45,97,164,38,220],
    "AAAAAAAAAAAAAAAAb40GGddG1RrwP6IvCy1hpCbc"),
  ([114,49],[124,141,15,58,147,243,44,226,252,70,42,242,160,24,65,30,237,78],
    "AAAAAAAAAAAAAAAAfI0POpPzLOL8RiryoBhBHu1O"),
  ([97,50],[111,142,81,124,75,88,59,205,197,70,73,95,132,91,28,56,117,101],
    "AAAAAAAAAAAAAAAAb45RfEtYO83FRklfhFscOHVl")]

/-- The tables above, completed to functions that keep the laws. -/
def Crypto.sample : Crypto where
  decodeHex text :=
    if text = "000102030405060708090a0b0c0d0e0f101112131415161718191a1b1c1d1e1f" then
      .ok ((List.range 32).map UInt8.ofNat)
    else .error "encoding/hex: invalid byte"
  gcmSeal _ _ plaintext :=
    match vectors.find? fun v => v.1 = plaintext with
    | some v => v.2.1
    | none => plaintext ++ List.replicate 16 0
  gcmOpen _ _ ciphertext :=
    match vectors.find? fun v => v.2.1 = ciphertext with
    | some v => .ok v.1
    | none => .ok (ciphertext.take (ciphertext.length - 16))
  encodeToString bytes :=
    match vectors.find? fun v => zeroNonce.bytes ++ v.2.1 = bytes with
    | some v => v.2.2
    | none => String.ofList ('!' :: bytes.map fun b => Char.ofNat b.toNat)
  decodeString text :=
    match vectors.find? fun v => v.2.2 = text with
    | some v => .ok (zeroNonce.bytes ++ v.2.1)
    | none => .ok (text.toList.tail.map fun c => UInt8.ofNat c.toNat)

def sample : OauthIntegrationService where
  crypto := .sample
  tokenEncryptionKey := "000102030405060708090a0b0c0d0e0f101112131415161718191a1b1c1d1e1f"
  scopes := ["https://www.googleapis.com/auth/calendar"]

theorem char_byte (b : UInt8) : UInt8.ofNat (Char.ofNat b.toNat).toNat = b := by
  have below := b.toNat_lt
  have valid : b.toNat.isValidChar := .inl (by omega)
  rw [Char.ofNat,dif_pos valid]
  exact UInt8.ofNat_toNat

theorem sample_laws : sample.crypto.Laws sample.tokenEncryptionKey := by
  constructor
  · exact ⟨(List.range 32).map UInt8.ofNat,rfl,rfl⟩
  · intro _ _ plaintext
    have known : ∀ v ∈ vectors, (vectors.find? fun w => w.2.1 = v.2.1) = some v := by decide
    have tagged : ∀ v ∈ vectors, v.2.1.getLast? ≠ some 0 := by decide
    simp only [sample,Crypto.sample]
    cases found : vectors.find? fun v => v.1 = plaintext with
    | some v =>
      dsimp only
      rw [known v (List.mem_of_find?_eq_some found)]
      have same := List.find?_some found
      simpa using same
    | none =>
      dsimp only
      have absent : (vectors.find? fun v => v.2.1 = plaintext ++ List.replicate 16 0) = none := by
        rw [List.find?_eq_none]
        intro v member same
        refine tagged v member ?_
        rw [of_decide_eq_true same,List.getLast?_append]
        rfl
      rw [absent]
      simp
  · intro bytes
    have known : ∀ v ∈ vectors, (vectors.find? fun w => w.2.2 = v.2.2) = some v := by decide
    have plain : ∀ v ∈ vectors, v.2.2.toList.head? ≠ some '!' := by decide
    simp only [sample,Crypto.sample]
    cases found : vectors.find? fun v => zeroNonce.bytes ++ v.2.1 = bytes with
    | some v =>
      dsimp only
      rw [known v (List.mem_of_find?_eq_some found)]
      have same := List.find?_some found
      simpa using same
    | none =>
      dsimp only
      have absent : (vectors.find? fun v =>
          v.2.2 = String.ofList ('!' :: bytes.map fun b => Char.ofNat b.toNat)) = none := by
        rw [List.find?_eq_none]
        intro v member same
        refine plain v member ?_
        rw [of_decide_eq_true same,String.toList_ofList]
        rfl
      rw [absent]
      simp [Function.comp_def,char_byte]
  · intro bytes _
    have full : ∀ v ∈ vectors, v.2.2 ≠ "" := by decide
    simp only [sample,Crypto.sample]
    split
    next v found => exact full v (List.mem_of_find?_eq_some found)
    next =>
      intro empty
      have none_ := congrArg String.toList empty
      rw [String.toList_ofList] at none_
      contradiction

/-- A consent, and a refresh that brings the refresh token along. -/
def connects : List Op :=
  [.consent draw "101" ⟨[97,49],[114,49],0⟩,.read draw (.ok ⟨[97,50],[114,49],3600000⟩)]

theorem connects_renewable : Renewable sample "alice" "google" .empty none connects := by
  have absent : ∀ row ∈ Table.empty.rows, ¬(row.userID = "alice" ∧ row.provider = "google") := by simp [Table.empty]
  refine (renewable_iff sample sample_laws "alice" "google" .empty absent connects).mpr ?_
  have keeps : KeepsRefresh (some ([97,49],[114,49])) (.ok ⟨[97,50],[114,49],3600000⟩) := by
    intro _ empty
    contradiction
  exact ⟨rfl,by decide,⟨keeps,trivial⟩⟩

/-- A second consent. -/
def reconnects : List Op :=
  [.consent draw "101" ⟨[97,49],[114,49],0⟩,.consent draw "101" ⟨[97,50],[114,49],3600000⟩]

theorem reconnects_refused : ¬∀ svc : OauthIntegrationService, svc.crypto.Laws svc.tokenEncryptionKey →
    ∀ userID provider ops, Renewable svc userID provider .empty none ops := by
  intro renews
  obtain ⟨_,t,stored,_,u,again,_⟩ := renews sample sample_laws "alice" "google" reconnects
  have refused : ((sample.storeToken draw "alice" "google" "101" ⟨[97,49],[114,49],0⟩ .empty).bind fun t =>
      sample.storeToken draw "alice" "google" "101" ⟨[97,50],[114,49],3600000⟩ t).toOption.isNone = true := by
    decide +kernel
  rw [stored] at refused
  simp only [Except.bind,again] at refused
  contradiction

end Histories

end TinyAutomator.Integrations
