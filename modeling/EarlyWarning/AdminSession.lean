/-
# `AdminSession` — the session of an administrator

What `app/auth.py`, `app/security.py`, `app/admin_cli.py` and the password handler of
`app/routes.py` do with `request.session`, which is all that a session cookie holds, and with
the rows of `adminuser`.  Moments are epoch seconds, as `_epoch_seconds` reads them.

A cookie is signed, so its values are ones that the program put there; their types, which
`_session_integer` checks, are those of the fields here.
-/
import EarlyWarning.Models

namespace EarlyWarning

structure AdminUser where
  id : Nat
  username : String
  passwordHash : String
  sessionVersion : Int := 1
deriving DecidableEq

/-- `request.session` -/
structure SessionData where
  adminUserId : Option Nat := none
  authenticatedAt : Option Int := none
  lastActivityAt : Option Int := none
  adminSessionVersion : Option Int := none
  csrfToken : Option String := none
deriving DecidableEq

/-! ## The handlers -/

/-- `ensure_csrf_token`; `token` is the one it makes when there is none. -/
def ensureCsrfToken (session : SessionData) (token : String) : SessionData :=
  match session.csrfToken with
  | none => { session with csrfToken := some token }
  | some old => if old = "" then { session with csrfToken := some token } else session

/-- `establish_admin_session` -/
def establishAdminSession (session : SessionData) (user : AdminUser) (now : Int) :
    SessionData :=
  { session with
    adminUserId := some user.id
    authenticatedAt := some now
    lastActivityAt := some now
    adminSessionVersion := some user.sessionVersion }

/-- What `login` makes of a session when the password is right. -/
def loginSession (user : AdminUser) (token : String) (now : Int) : SessionData :=
  establishAdminSession { csrfToken := some token } user now

/-- The condition of `validate_admin_session`. -/
def SessionAccepted (session : SessionData) (user : AdminUser)
    (maxAgeSeconds idleTimeoutSeconds now : Int) : Prop :=
  session.adminUserId = some user.id ∧ session.adminSessionVersion = some user.sessionVersion ∧
    ∃ authenticatedAt ∈ session.authenticatedAt, ∃ lastActivityAt ∈ session.lastActivityAt,
      authenticatedAt ≤ now ∧ lastActivityAt ≤ now ∧ authenticatedAt ≤ lastActivityAt ∧
      now - authenticatedAt < maxAgeSeconds ∧ now - lastActivityAt < idleTimeoutSeconds

/-- `validate_admin_session` -/
def validateAdminSession (session : SessionData) (user : AdminUser)
    (maxAgeSeconds idleTimeoutSeconds now : Int) : Bool × SessionData :=
  match session.adminUserId, session.authenticatedAt, session.lastActivityAt,
      session.adminSessionVersion with
  | some userId, some authenticatedAt, some lastActivityAt, some sessionVersion =>
      if userId ≠ user.id ∨ sessionVersion ≠ user.sessionVersion ∨ authenticatedAt > now ∨
          lastActivityAt > now ∨ lastActivityAt < authenticatedAt ∨
          now - authenticatedAt ≥ maxAgeSeconds ∨ now - lastActivityAt ≥ idleTimeoutSeconds then
        (false, {})
      else (true, { session with lastActivityAt := some now })
  | _, _, _, _ => (false, {})

/-- The errors of `change_admin_password`; `""` when there is none.  `matches` is what
`verify_password` says of the current password. -/
def passwordError (currentPassword newPassword confirmPassword : String)
    (matched : Bool) : String :=
  if currentPassword = "" ∨ newPassword = "" ∨ confirmPassword = "" then
    "请填写完整的密码信息"
  else if ¬matched then "当前密码不正确"
  else if newPassword.length < 12 then "新密码长度至少 12 位"
  else if newPassword = currentPassword then "新密码不能与当前密码相同"
  else if newPassword ≠ confirmPassword then "两次输入的新密码不一致"
  else ""

/-! ## The rows -/

def findUser (users : List AdminUser) (id : Nat) : Option AdminUser :=
  users.find? fun user => user.id = id

def findUsername (users : List AdminUser) (username : String) : Option AdminUser :=
  users.find? fun user => user.username = username

/-- The UPDATE of a password change: the two columns that differ from the row as it was
loaded. -/
def updatePassword (users : List AdminUser) (id : Nat) (passwordHash : String)
    (sessionVersion : Int) : List AdminUser :=
  users.map fun user => if user.id = id then { user with passwordHash, sessionVersion } else user

/-! ## What they say -/

variable {session session' : SessionData} {user row : AdminUser} {users : List AdminUser}
  {maxAgeSeconds idleTimeoutSeconds now version : Int} {id id' : Nat} {hash token : String}

/-- A session is accepted with a new `last_activity_at`, or it is cleared. -/
theorem validateAdminSession_cases (session : SessionData) (user : AdminUser)
    (maxAgeSeconds idleTimeoutSeconds now : Int) :
    (SessionAccepted session user maxAgeSeconds idleTimeoutSeconds now ∧
      validateAdminSession session user maxAgeSeconds idleTimeoutSeconds now =
        (true, { session with lastActivityAt := some now })) ∨
    (¬SessionAccepted session user maxAgeSeconds idleTimeoutSeconds now ∧
      validateAdminSession session user maxAgeSeconds idleTimeoutSeconds now = (false, {})) := by
  obtain ⟨userId, authenticatedAt, lastActivityAt, sessionVersion, csrfToken⟩ := session
  cases userId with
  | none => exact .inr ⟨by simp [SessionAccepted], rfl⟩
  | some userId =>
  cases authenticatedAt with
  | none => exact .inr ⟨by simp [SessionAccepted], rfl⟩
  | some authenticatedAt =>
  cases lastActivityAt with
  | none => exact .inr ⟨by simp [SessionAccepted], rfl⟩
  | some lastActivityAt =>
  cases sessionVersion with
  | none => exact .inr ⟨by simp [SessionAccepted], rfl⟩
  | some sessionVersion =>
      simp only [validateAdminSession, SessionAccepted, Option.some.injEq, Option.mem_def,
        exists_eq_left']
      split
      case isTrue hrefused => exact .inr ⟨by omega, rfl⟩
      case isFalse haccepted => exact .inl ⟨by omega, rfl⟩

theorem ensureCsrfToken_eq (session : SessionData) (token : String) :
    ∃ csrfToken, ensureCsrfToken session token = { session with csrfToken } := by
  simp only [ensureCsrfToken]
  split
  · exact ⟨some token, rfl⟩
  · split
    · exact ⟨some token, rfl⟩
    · exact ⟨session.csrfToken, rfl⟩

theorem findUser_updatePassword_self (h : findUser users id = some row) :
    findUser (updatePassword users id hash version) id =
      some { row with passwordHash := hash, sessionVersion := version } := by
  induction users with
  | nil => cases h
  | cons user rest ih =>
      simp only [findUser, updatePassword, List.map_cons, List.find?_cons] at h ih ⊢
      by_cases hid : user.id = id
      · simp only [hid, decide_true, Option.some.injEq] at h
        simp [hid, ← h]
      · simp only [hid, decide_false] at h
        simpa [hid] using ih h

theorem findUser_updatePassword_ne (h : id' ≠ id) :
    findUser (updatePassword users id hash version) id' = findUser users id' := by
  induction users with
  | nil => rfl
  | cons user rest ih =>
      simp only [findUser, updatePassword, List.map_cons, List.find?_cons] at ih ⊢
      by_cases hid : user.id = id
      · simpa [hid, Ne.symm h] using ih
      · by_cases hid' : user.id = id'
        · simp [hid', h]
        · simpa [hid, hid'] using ih

end EarlyWarning
