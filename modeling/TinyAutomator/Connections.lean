import TinyAutomator.Integrations
import TinyAutomator.Lib.Transition
import TinyAutomator.Lib.Pool

/-! How a Google account gets connected to a user: a signed state goes out with the consent
URL and comes back through the browser, and tokens are read and renewed while that happens. -/
namespace TinyAutomator.Integrations

open Transition
open Workflows (wrap wrap_ok)

/-- jwt.RegisteredClaims; dates are in whole seconds. -/
structure Claims where
  subject : UserID
  issuedAt : Int
  expiresAt : Int
  audience : List String
  deriving DecidableEq

/-- HS256: `parse` gives the claims of a token whose signature is right under the key. -/
structure Jwt where
  sign (secret : Bytes) (claims : Claims) : Except String String
  parse (secret : Bytes) (token : String) : Option Claims

/-- A signed token is read back. -/
def Jwt.Laws (jwt : Jwt) (secret : Bytes) : Prop :=
  ∀ claims token, jwt.sign secret claims = .ok token → jwt.parse secret token = some claims

/-- googleAuthController; the clock is in milliseconds. -/
structure GoogleAuthController where
  jwt : Jwt
  jwtSecret : Bytes
  oauthIntegrationSvc : OauthIntegrationService

/-- A code 200 is not an error. -/
structure ErrorResponse where
  code : Nat
  error : String
  deriving DecidableEq

/-- What a callback gets from outside: the clock, whether Clerk knows a user, the exchange of
the code, the Google user of a token, and the draw of StoreToken. -/
structure CallbackEnv where
  now : Int
  clerkUser : UserID → Bool
  exchange : String → Except String Token
  googleUserID : Token → Except String String
  draw : Draw

section Controller

def tenMinutes : Int := 10 * 60 * 1000

/-- The claims of createSecureState; a NumericDate is truncated to seconds. -/
def secureClaims (userID : UserID) (now : Int) : Claims :=
  ⟨userID,now / 1000,(now + tenMinutes) / 1000,["google_oauth"]⟩

variable (c : GoogleAuthController)

def GoogleAuthController.createSecureState (userID : UserID) (now : Int) : Except String String :=
  wrap "failed to sign token: " (c.jwt.sign c.jwtSecret (secureClaims userID now))

def GoogleAuthController.parseSecureState (state : String) (now : Int) : Except String UserID :=
  match c.jwt.parse c.jwtSecret state with
  | none => .error "invalid token: token signature is invalid"
  | some claims =>
    if claims.expiresAt * 1000 ≤ now then .error "invalid token: token has invalid claims: token is expired"
    else if "google_oauth" ∉ claims.audience then
      .error "invalid token: token has invalid claims: token has invalid audience"
    else .ok claims.subject

/-- HandleCallBack: the user, the token and the table with its row, or what is answered. -/
def GoogleAuthController.handleCallBack (code state : String) (env : CallbackEnv) (t : Table) :
    Except ErrorResponse (UserID × Token × Table) :=
  if code = "" then .error ⟨400,"Missing code"⟩
  else if state = "" then .error ⟨400,"Missing state parameter"⟩
  else
    match c.parseSecureState state env.now with
    | .error _ => .error ⟨400,"Invalid or expired state parameter"⟩
    | .ok userID =>
      if ¬env.clerkUser userID then .error ⟨400,"Unable to get user in oauth callback"⟩
      else
        match env.exchange code with
        | .error _ => .error ⟨500,"Token exchange failed"⟩
        | .ok token =>
          match env.googleUserID token with
          | .error _ => .error ⟨500,"Failed to get google user ID in oauth callback"⟩
          | .ok googleUserID =>
            match c.oauthIntegrationSvc.storeToken env.draw userID "google" googleUserID token t with
            | .error _ => .error ⟨500,"Failed to create oauth integration in oauth callback"⟩
            | .ok u => .ok (userID,token,u)

/-- The repository's DeleteAllByUserID. -/
def Table.deleteAllByUserID (t : Table) (userID : UserID) : Table where
  rows := t.rows.filter fun row => row.userID ≠ userID
  nextID := t.nextID
  unique := t.unique.sublist (List.filter_sublist.map _)
  fresh := fun row member => t.fresh row (List.mem_filter.mp member).1

end Controller

section System

/-- A state that GetGoogleAuthURL has given out. -/
structure Issue where
  userID : UserID
  issuedAt : Int
  state : String

/-- A callback that was answered with 200. -/
structure Grant where
  id : Nat
  userID : UserID
  state : String
  checkedAt : Int

/-- Tokens that came from Google for a row: from the exchange of a code, or in return for the
tokens of `origin`. -/
structure Obtained where
  id : Nat
  userID : UserID
  tokens : Bytes × Bytes
  origin : Option (Bytes × Bytes)

def Token.pair (token : Token) : Bytes × Bytes := (token.accessToken,token.refreshToken)

/-- A GetToken that is waiting for the token source. -/
structure Reading where
  id : Nat
  userID : UserID
  presented : Token

/-- The table, and what has happened. -/
structure Linking where
  table : Table
  issued : List Issue
  granted : List Grant
  obtained : List Obtained
  reading : List Reading

inductive LinkLabel where
  | getGoogleAuthURL (userID : UserID) (now : Int)
  | handleCallBack (code state : String) (env : CallbackEnv)
  | startGetToken (userID : UserID)
  | finishGetToken (reading : Nat) (draw : Draw) (answer : Except String Token)
  | deleteAllByUserID (userID : UserID)

variable (c : GoogleAuthController)

/-- The second half of GetToken, on the table of that moment. -/
def Linking.finish (s : Linking) (r : Reading) (draw : Draw) (answer : Except String Token) : Linking :=
  match answer with
  | .error _ => s
  | .ok refreshedToken =>
    if refreshedToken.accessToken ≠ r.presented.accessToken ∨
        refreshedToken.refreshToken ≠ [] ∧ refreshedToken.refreshToken ≠ r.presented.refreshToken then
      match c.oauthIntegrationSvc.updateToken draw r.id refreshedToken s.table with
      | .error _ => s
      | .ok u => { s with
          table := u
          obtained := s.obtained ++ [⟨r.id,r.userID,refreshedToken.pair,some r.presented.pair⟩] }
    else s

def linkStep : LinkLabel → Linking → Option Linking
  | .getGoogleAuthURL userID now, s =>
    match c.createSecureState userID now with
    | .error _ => some s
    | .ok state => some { s with issued := s.issued ++ [⟨userID,now,state⟩] }
  | .handleCallBack code state env, s =>
    match c.handleCallBack code state env s.table with
    | .error _ => some s
    | .ok (userID,token,u) => some { s with
        table := u
        granted := s.granted ++ [⟨s.table.nextID,userID,state,env.now⟩]
        obtained := s.obtained ++ [⟨s.table.nextID,userID,token.pair,none⟩] }
  | .startGetToken userID, s =>
    match c.oauthIntegrationSvc.present userID "google" s.table with
    | .error _ => some s
    | .ok (record,presented) => some { s with reading := s.reading ++ [⟨record.id,userID,presented⟩] }
  | .finishGetToken i draw answer, s =>
    match s.reading[i]? with
    | none => none
    | some r => some { s.finish c r draw answer with reading := s.reading.eraseIdx i }
  | .deleteAllByUserID userID, s => some { s with table := s.table.deleteAllByUserID userID }

def linking : System Linking LinkLabel := ⟨⟨.empty,[],[],[],[]⟩,linkStep c⟩

/-- Nobody but the controller can sign: a state that passes has been given out. -/
def Unforged : Guard Linking LinkLabel
  | s, .handleCallBack _ state _ =>
    (c.jwt.parse c.jwtSecret state).isSome → ∃ issue ∈ s.issued, issue.state = state
  | _, .getGoogleAuthURL _ _ | _, .startGetToken _ | _, .finishGetToken _ _ _ | _, .deleteAllByUserID _ => True

instance (s : Linking) : (label : LinkLabel) → Decidable (Unforged c s label)
  | .handleCallBack _ state _ =>
    inferInstanceAs (Decidable (_ → ∃ issue ∈ s.issued, issue.state = state))
  | .getGoogleAuthURL _ _ | .startGetToken _ | .finishGetToken _ _ _ | .deleteAllByUserID _ => isTrue trivial

end System

section Rows

variable {svc : OauthIntegrationService} {userID : UserID} {provider providerUserID : String} {t u : Table}
  {draw : Draw} {token presented : Token} {row record : OauthIntegration} {id : Nat}

/-- A row holds two tokens. -/
def OauthIntegration.Holds (svc : OauthIntegrationService) (row : OauthIntegration) (tokens : Bytes × Bytes) :
    Prop :=
  svc.decrypt row.accessToken = .ok tokens.1 ∧ svc.decrypt row.refreshToken = .ok tokens.2

theorem present_some (found : svc.present userID provider t = .ok (record,presented)) :
    record ∈ t.rows ∧ record.userID = userID ∧ record.Holds svc presented.pair := by
  unfold OauthIntegrationService.present at found
  split at found
  next => contradiction
  next row is =>
    obtain ⟨stored,own,_⟩ := Table.find_iff.mp is
    obtain ⟨access,first,found⟩ := Fold.bind_ok.mp found
    obtain ⟨refresh,second,found⟩ := Fold.bind_ok.mp found
    cases found
    refine ⟨stored,own,wrap_ok.mp first,?_⟩
    split at second
    next => exact wrap_ok.mp second
    next empty =>
      cases second
      rw [not_not.mp empty]
      rfl

theorem encrypted_decrypts (laws : svc.crypto.Laws svc.tokenEncryptionKey) {nonce : Nonce} {plaintext : Bytes}
    {text : String} (encrypted : svc.encrypt nonce plaintext = .ok text) : svc.decrypt text = .ok plaintext := by
  obtain ⟨text',encrypted',decrypted,_⟩ := decrypt_encrypt laws nonce plaintext
  rw [encrypted] at encrypted'
  cases encrypted'
  exact decrypted

theorem encrypted_refresh_decrypts (laws : svc.crypto.Laws svc.tokenEncryptionKey) {nonce : Nonce}
    {plaintext : Bytes} {context text : String} (encrypted : (if plaintext ≠ [] then
      wrap context (svc.encrypt nonce plaintext) else .ok "") = .ok text) :
    svc.decrypt text = .ok plaintext := by
  obtain ⟨text',encrypted',decrypted⟩ := encrypt_refresh laws nonce plaintext context
  rw [encrypted] at encrypted'
  cases encrypted'
  exact decrypted

theorem Table.create_nextID (created : t.create row = .ok u) : u.nextID = t.nextID + 1 := by
  unfold Table.create at created
  split at created
  next => contradiction
  next =>
    split at created
    next => contradiction
    next => cases created; rfl

theorem storeToken_ok (laws : svc.crypto.Laws svc.tokenEncryptionKey)
    (stored : svc.storeToken draw userID provider providerUserID token t = .ok u) :
    u.nextID = t.nextID + 1 ∧ ∃ row, u.rows = t.rows ++ [row] ∧ row.id = t.nextID ∧ row.userID = userID ∧
      row.provider = provider ∧ row.Holds svc token.pair := by
  obtain ⟨access,first,stored⟩ := Fold.bind_ok.mp stored
  obtain ⟨refresh,second,stored⟩ := Fold.bind_ok.mp stored
  have created := wrap_ok.mp stored
  exact ⟨Table.create_nextID created,_,Table.create_rows created,rfl,rfl,rfl,
    encrypted_decrypts laws (wrap_ok.mp first),encrypted_refresh_decrypts laws second⟩

/-- An update writes the tokens of the row with its id, and no owner. -/
theorem updateToken_ok (laws : svc.crypto.Laws svc.tokenEncryptionKey)
    (updated : svc.updateToken draw id token t = .ok u) : u.nextID = t.nextID ∧ ∀ row ∈ u.rows,
      ∃ old ∈ t.rows, row.id = old.id ∧ row.userID = old.userID ∧ row.provider = old.provider ∧
        (old.id = id ∧ row.Holds svc token.pair ∨ row = old) := by
  obtain ⟨access,first,updated⟩ := Fold.bind_ok.mp updated
  obtain ⟨refresh,second,updated⟩ := Fold.bind_ok.mp updated
  have changed := wrap_ok.mp updated
  unfold Table.update at changed
  dsimp only at changed
  split at changed
  next =>
    cases changed
    refine ⟨rfl,fun row member => ?_⟩
    obtain ⟨old,stored,rfl⟩ := List.mem_map.mp member
    refine ⟨old,stored,?_⟩
    by_cases same : old.id = id
    · rw [if_pos same]
      exact ⟨rfl,rfl,rfl,.inl ⟨same,encrypted_decrypts laws (wrap_ok.mp first),
        encrypted_refresh_decrypts laws second⟩⟩
    · rw [if_neg same]
      exact ⟨rfl,rfl,rfl,.inr rfl⟩
  next => contradiction

end Rows

section Runs

variable {c : GoogleAuthController} {s t : Linking} {label : LinkLabel}

/-- A row exists by a callback that brought back, within ten minutes, a state given out to its
user, and it holds tokens obtained for it. -/
structure Linked (c : GoogleAuthController) (s : Linking) (row : OauthIntegration) : Prop where
  provider : row.provider = "google"
  granted : ∃ grant ∈ s.granted, ∃ issue ∈ s.issued, grant.id = row.id ∧ grant.userID = row.userID ∧
    issue.state = grant.state ∧ issue.userID = row.userID ∧ grant.checkedAt < issue.issuedAt + tenMinutes
  tokens : ∃ o ∈ s.obtained, o.id = row.id ∧ o.userID = row.userID ∧ row.Holds c.oauthIntegrationSvc o.tokens

/-- Tokens of a row were obtained for it and its user. -/
def Linking.Obtains (s : Linking) (id : Nat) (userID : UserID) (tokens : Bytes × Bytes) : Prop :=
  ∃ o ∈ s.obtained, o.id = id ∧ o.userID = userID ∧ o.tokens = tokens

structure Linking.Sound (c : GoogleAuthController) (s : Linking) : Prop where
  issued : ∀ issue ∈ s.issued, c.jwt.sign c.jwtSecret (secureClaims issue.userID issue.issuedAt) = .ok issue.state
  rows : ∀ row ∈ s.table.rows, Linked c s row
  reading : ∀ r ∈ s.reading, s.Obtains r.id r.userID r.presented.pair
  chain : ∀ o ∈ s.obtained, ∀ tokens, o.origin = some tokens → s.Obtains o.id o.userID tokens
  owner : ∀ o ∈ s.obtained, ∀ o' ∈ s.obtained, o.id = o'.id → o.userID = o'.userID
  fresh : ∀ o ∈ s.obtained, o.id < s.table.nextID

theorem Linked.mono {row : OauthIntegration} (linked : Linked c s row)
    (issued : ∀ i ∈ s.issued, i ∈ t.issued) (granted : ∀ g ∈ s.granted, g ∈ t.granted)
    (obtained : ∀ o ∈ s.obtained, o ∈ t.obtained) : Linked c t row := by
  obtain ⟨provider,⟨grant,there,issue,given,rest⟩,o,member,own⟩ := linked
  exact ⟨provider,⟨grant,granted grant there,issue,issued issue given,rest⟩,o,obtained o member,own⟩

theorem Linking.Obtains.mono {id : Nat} {userID : UserID} {tokens : Bytes × Bytes}
    (obtains : s.Obtains id userID tokens) (obtained : ∀ o ∈ s.obtained, o ∈ t.obtained) :
    t.Obtains id userID tokens := by
  obtain ⟨o,member,own⟩ := obtains
  exact ⟨o,obtained o member,own⟩

theorem parseSecureState_ok {state : String} {now : Int} {userID : UserID}
    (parsed : c.parseSecureState state now = .ok userID) : ∃ claims,
      c.jwt.parse c.jwtSecret state = some claims ∧ claims.subject = userID ∧ now < claims.expiresAt * 1000 := by
  unfold GoogleAuthController.parseSecureState at parsed
  split at parsed
  next => contradiction
  next claims is =>
    split at parsed
    next => contradiction
    next current =>
      split at parsed
      next => contradiction
      next => cases parsed; exact ⟨claims,is,rfl,Int.not_le.mp current⟩

theorem handleCallBack_ok {code state : String} {env : CallbackEnv} {userID : UserID} {token : Token}
    {t u : Table} (linked : c.handleCallBack code state env t = .ok (userID,token,u)) :
    c.parseSecureState state env.now = .ok userID ∧ ∃ googleUserID,
      c.oauthIntegrationSvc.storeToken env.draw userID "google" googleUserID token t = .ok u := by
  unfold GoogleAuthController.handleCallBack at linked
  split at linked
  next => contradiction
  next =>
    split at linked
    next => contradiction
    next =>
      split at linked
      next => contradiction
      next user parsed =>
        split at linked
        next => contradiction
        next =>
          split at linked
          next => contradiction
          next =>
            split at linked
            next => contradiction
            next googleUserID _ =>
              split at linked
              next => contradiction
              next stored => cases linked; exact ⟨parsed,googleUserID,stored⟩

/-- A state that passes was given out to its subject less than ten minutes ago. -/
theorem Linking.Sound.state (sound : s.Sound c) (laws : c.jwt.Laws c.jwtSecret) {code state : String}
    {env : CallbackEnv} {userID : UserID} (unforged : Unforged c s (.handleCallBack code state env))
    (parsed : c.parseSecureState state env.now = .ok userID) : ∃ issue ∈ s.issued,
      issue.state = state ∧ issue.userID = userID ∧ env.now < issue.issuedAt + tenMinutes := by
  obtain ⟨claims,is,subject,current⟩ := parseSecureState_ok parsed
  obtain ⟨issue,given,same⟩ := unforged (by rw [is]; rfl)
  have signed := laws _ _ (sound.issued issue given)
  rw [same,is] at signed
  obtain rfl := Option.some.inj signed
  refine ⟨issue,given,same,subject,?_⟩
  have whole := Int.ediv_mul_le (issue.issuedAt + tenMinutes) (b := 1000) (by decide)
  exact Int.lt_of_lt_of_le current whole

theorem Linking.Sound.callback (sound : s.Sound c) (laws : c.jwt.Laws c.jwtSecret)
    (crypto : c.oauthIntegrationSvc.crypto.Laws c.oauthIntegrationSvc.tokenEncryptionKey) {code state : String}
    {env : CallbackEnv} (unforged : Unforged c s (.handleCallBack code state env))
    (step : linkStep c (.handleCallBack code state env) s = some t) : t.Sound c := by
  simp only [linkStep] at step
  split at step
  next => cases step; exact sound
  next userID token u linked =>
    cases step
    obtain ⟨parsed,googleUserID,stored⟩ := handleCallBack_ok linked
    obtain ⟨counter,row,rows,id,user,provider,holds⟩ := storeToken_ok crypto stored
    obtain ⟨issue,given,same,subject,timely⟩ := sound.state laws unforged parsed
    have first : ∀ o ∈ s.obtained, o.id ≠ s.table.nextID := fun o member => Nat.ne_of_lt (sound.fresh o member)
    refine ⟨sound.issued,?_,?_,?_,?_,?_⟩
    · intro x member
      dsimp only at member
      rw [rows] at member
      rcases List.mem_append.mp member with old | new
      · exact (sound.rows x old).mono (fun _ kept => kept) (fun _ => List.mem_append_left _)
          (fun _ => List.mem_append_left _)
      · obtain rfl := List.mem_singleton.mp new
        exact ⟨provider,⟨_,List.mem_append_right _ (List.mem_singleton_self _),issue,given,id.symm,user.symm,same,
          subject.trans user.symm,timely⟩,_,List.mem_append_right _ (List.mem_singleton_self _),id.symm,
          user.symm,holds⟩
    · exact fun r member => (sound.reading r member).mono fun _ => List.mem_append_left _
    · intro o member tokens origin
      rcases List.mem_append.mp member with old | new
      · exact (sound.chain o old tokens origin).mono fun _ => List.mem_append_left _
      · rw [List.mem_singleton.mp new] at origin
        contradiction
    · intro o member o' member' same
      rcases List.mem_append.mp member with old | new
      · rcases List.mem_append.mp member' with old' | new'
        · exact sound.owner o old o' old' same
        · rw [List.mem_singleton.mp new'] at same
          exact absurd same (first o old)
      · rcases List.mem_append.mp member' with old' | new'
        · rw [List.mem_singleton.mp new] at same
          exact absurd same.symm (first o' old')
        · rw [List.mem_singleton.mp new,List.mem_singleton.mp new']
    · intro o member
      dsimp only
      rw [counter]
      rcases List.mem_append.mp member with old | new
      · exact Nat.lt_succ_of_lt (sound.fresh o old)
      · rw [List.mem_singleton.mp new]
        exact Nat.lt_succ_self _

theorem Linking.Sound.finish (sound : s.Sound c)
    (crypto : c.oauthIntegrationSvc.crypto.Laws c.oauthIntegrationSvc.tokenEncryptionKey) {r : Reading}
    {draw : Draw} {answer : Except String Token} (read : s.Obtains r.id r.userID r.presented.pair) :
    (s.finish c r draw answer).Sound c := by
  unfold Linking.finish
  split
  next => exact sound
  next refreshed =>
    split
    next =>
      split
      next => exact sound
      next u updated =>
        obtain ⟨counter,rows⟩ := updateToken_ok crypto updated
        obtain ⟨o₀,member₀,id₀,user₀,_⟩ := id read
        refine ⟨sound.issued,?_,?_,?_,?_,?_⟩
        · intro row member
          obtain ⟨old,stored,id,user,provider,written⟩ := rows row member
          have linked := sound.rows old stored
          rcases written with ⟨own,holds⟩ | rfl
          · obtain ⟨o,listed,oid,ouser,_⟩ := linked.tokens
            have its : o₀.userID = o.userID :=
              sound.owner o₀ member₀ o listed (id₀.trans (own.symm.trans oid.symm))
            refine ⟨provider.trans linked.provider,?_,_,List.mem_append_right _ (List.mem_singleton_self _),
              own.symm.trans id.symm,?_,holds⟩
            · rw [id,user]
              exact linked.granted
            · exact user₀.symm.trans (its.trans (ouser.trans user.symm))
          · exact linked.mono (fun _ kept => kept) (fun _ kept => kept) fun _ => List.mem_append_left _
        · exact fun r member => (sound.reading r member).mono fun _ => List.mem_append_left _
        · intro o member tokens origin
          rcases List.mem_append.mp member with old | new
          · exact (sound.chain o old tokens origin).mono fun _ => List.mem_append_left _
          · rw [List.mem_singleton.mp new] at origin ⊢
            cases origin
            exact read.mono fun _ => List.mem_append_left _
        · intro o member o' member' same
          have traced : ∀ x ∈ s.obtained ++ [⟨r.id,r.userID,refreshed.pair,some r.presented.pair⟩],
              ∃ y ∈ s.obtained, y.id = x.id ∧ y.userID = x.userID := by
            intro x listed
            rcases List.mem_append.mp listed with old | new
            · exact ⟨x,old,rfl,rfl⟩
            · rw [List.mem_singleton.mp new]
              exact ⟨o₀,member₀,id₀,user₀⟩
          obtain ⟨y,listed,yid,yuser⟩ := traced o member
          obtain ⟨z,listed',zid,zuser⟩ := traced o' member'
          exact yuser.symm.trans ((sound.owner y listed z listed' (yid.trans (same.trans zid.symm))).trans zuser)
        · intro o member
          dsimp only
          rw [counter]
          rcases List.mem_append.mp member with old | new
          · exact sound.fresh o old
          · rw [List.mem_singleton.mp new]
            exact id₀ ▸ sound.fresh o₀ member₀
    next => exact sound

theorem Linking.Sound.step (sound : s.Sound c) (laws : c.jwt.Laws c.jwtSecret)
    (crypto : c.oauthIntegrationSvc.crypto.Laws c.oauthIntegrationSvc.tokenEncryptionKey)
    (unforged : Unforged c s label) (step : linkStep c label s = some t) : t.Sound c := by
  cases label with
  | getGoogleAuthURL userID now =>
    simp only [linkStep] at step
    split at step
    next => cases step; exact sound
    next state signed =>
      cases step
      refine ⟨?_,fun row member => ?_,sound.reading,sound.chain,sound.owner,sound.fresh⟩
      · exact Pool.forall_append sound.issued (wrap_ok.mp signed)
      · exact (sound.rows row member).mono (fun _ => List.mem_append_left _) (fun _ kept => kept) fun _ kept => kept
  | handleCallBack code state env => exact sound.callback laws crypto unforged step
  | startGetToken userID =>
    simp only [linkStep] at step
    split at step
    next => cases step; exact sound
    next record presented found =>
      cases step
      obtain ⟨stored,own,holds⟩ := present_some found
      refine ⟨sound.issued,fun row member => ?_,?_,sound.chain,sound.owner,sound.fresh⟩
      · exact (sound.rows row member).mono (fun _ kept => kept) (fun _ kept => kept) fun _ kept => kept
      refine Pool.forall_append sound.reading ?_
      obtain ⟨o,listed,oid,ouser,access,refresh⟩ := (sound.rows record stored).tokens
      have same : o.tokens = presented.pair := by
        rw [holds.1] at access
        rw [holds.2] at refresh
        exact Prod.ext (Except.ok.inj access).symm (Except.ok.inj refresh).symm
      exact ⟨o,listed,oid,ouser.trans own,same⟩
  | finishGetToken i draw answer =>
    simp only [linkStep] at step
    split at step
    next => contradiction
    next r at_ =>
      cases step
      have done : (s.finish c r draw answer).Sound c :=
        sound.finish crypto (sound.reading r (List.mem_of_getElem? at_))
      have kept : (s.finish c r draw answer).reading = s.reading := by
        unfold Linking.finish
        repeat' split
        all_goals rfl
      refine ⟨done.issued,fun row member => ?_,fun x member => ?_,done.chain,done.owner,done.fresh⟩
      · exact (done.rows row member).mono (fun _ kept => kept) (fun _ kept => kept) fun _ kept => kept
      · exact done.reading x (kept ▸ List.mem_of_mem_eraseIdx member)
  | deleteAllByUserID userID =>
    cases step
    refine ⟨sound.issued,fun row member => ?_,sound.reading,sound.chain,sound.owner,sound.fresh⟩
    have linked := sound.rows row (List.mem_filter.mp member).1
    exact linked.mono (fun _ kept => kept) (fun _ kept => kept) fun _ kept => kept

/-- In every run in which states cannot be forged, whatever the order of callbacks, reads,
refreshes and deletions: a Google account is stored for a user only if that user was given
the state that came back, less than ten minutes before; a row holds tokens that were obtained
for it, and GetToken presents no other tokens to Google than those of its user's row. -/
theorem connections_granted (c : GoogleAuthController) (laws : c.jwt.Laws c.jwtSecret)
    (crypto : c.oauthIntegrationSvc.crypto.Laws c.oauthIntegrationSvc.tokenEncryptionKey)
    (reach : Reach (linking c) (Unforged c) s) :
    (∀ row ∈ s.table.rows, Linked c s row) ∧
    (∀ r ∈ s.reading, s.Obtains r.id r.userID r.presented.pair) ∧
    ∀ o ∈ s.obtained, ∀ tokens, o.origin = some tokens → s.Obtains o.id o.userID tokens := by
  have sound : s.Sound c := by
    refine reach.invariant (Linking.Sound c) ?_ ?_
    · exact ⟨by simp [linking],by simp [linking,Table.empty],by simp [linking],by simp [linking],
        by simp [linking],by simp [linking]⟩
    · intro s label t _ sound unforged step
      exact sound.step laws crypto unforged step
  exact ⟨sound.rows,sound.reading,sound.chain⟩

def jwtKey : Bytes := [115,101,99,114,101,116]

/-- What createSecureState signs for Alice at 5000, and at 3000. -/
def firstState : String := "eyJhbGciOiJIUzI1NiIsInR5cCI6IkpXVCJ9." ++
  "eyJzdWIiOiJhbGljZSIsImF1ZCI6WyJnb29nbGVfb2F1dGgiXSwiZXhwIjo2MDUsImlhdCI6NX0." ++
  "wKC0ef0NK9bIXPhY3vm22OwJYIX1pnhsNZLJNxCHCOI"

def secondState : String := "eyJhbGciOiJIUzI1NiIsInR5cCI6IkpXVCJ9." ++
  "eyJzdWIiOiJhbGljZSIsImF1ZCI6WyJnb29nbGVfb2F1dGgiXSwiZXhwIjo2MDMsImlhdCI6M30." ++
  "VPgJn2k9lexrZL3seB5S2hVdry7Is5JuW3zaDsRc-Ag"

/-- HS256 under the key "secret": claims and their tokens. -/
def signatures : List (Claims × String) :=
  [(⟨"alice",5,605,["google_oauth"]⟩,firstState),(⟨"alice",3,603,["google_oauth"]⟩,secondState)]

/-- The table above; under another key its tokens have a wrong signature. -/
def Jwt.sample : Jwt where
  sign secret claims :=
    match if secret = jwtKey then signatures.find? fun v => v.1 = claims else none with
    | some v => .ok v.2
    | none => .error "no signature is listed"
  parse secret token := if secret = jwtKey then (signatures.find? fun v => v.2 = token).map Prod.fst else none

theorem sample_signs (secret : Bytes) : Jwt.sample.Laws secret := by
  intro claims token signed
  simp only [Jwt.sample] at signed ⊢
  split at signed
  next v found =>
    cases signed
    split at found
    next own =>
      have known : ∀ v ∈ signatures, (signatures.find? fun w => w.2 = v.2) = some v := by decide +kernel
      have same : v.1 = claims := by simpa using List.find?_some found
      rw [if_pos own,known v (List.mem_of_find?_eq_some found),Option.map_some,same]
    next => contradiction
  next => contradiction

/-- The sample service behind the controller. -/
def connecting : GoogleAuthController := ⟨.sample,jwtKey,sample⟩

/-- A consent at some time, answered with the first access token. -/
def consent (now : Int) : CallbackEnv where
  now := now
  clerkUser := fun userID => userID = "alice"
  exchange := fun code => if code = "4/0A" then .ok ⟨[97,49],[114,49],0⟩ else .error "invalid_grant"
  googleUserID := fun _ => .ok "101"
  draw := draw

/-- Alice connects, deletes her account's data during a refresh and connects again; the old
refresh finds no row, a new one renews the new row. -/
theorem reconnected_granted : ∃ s, Reach (linking connecting) (Unforged connecting) s ∧
    (s.table.rows.map (·.id) = [2] ∧ s.obtained.length = 3) ∧
    ((∀ row ∈ s.table.rows, Linked connecting s row) ∧
    (∀ r ∈ s.reading, s.Obtains r.id r.userID r.presented.pair) ∧
    ∀ o ∈ s.obtained, ∀ tokens, o.origin = some tokens → s.Obtains o.id o.userID tokens) := by
  have run : ∃ s, Reach (linking connecting) (Unforged connecting) s ∧
      (s.table.rows.map (·.id) = [2] ∧ s.obtained.length = 3) :=
    follow_exists [.getGoogleAuthURL "alice" 5000,.handleCallBack "4/0A" firstState (consent 6000),
      .startGetToken "alice",.deleteAllByUserID "alice",.getGoogleAuthURL "alice" 3000,
      .handleCallBack "4/0A" secondState (consent 602999),
      .finishGetToken 0 draw (.ok ⟨[97,50],[114,49],3600000⟩),.startGetToken "alice",
      .finishGetToken 0 draw (.ok ⟨[97,50],[114,49],3600000⟩),
      .handleCallBack "4/0A" secondState (consent 603000)] (by decide +kernel)
  obtain ⟨s,reach,shape⟩ := run
  exact ⟨s,reach,shape,connections_granted connecting (sample_signs _) sample_laws reach⟩

end Runs

end TinyAutomator.Integrations
