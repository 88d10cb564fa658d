/-
# `SessionProtocol` — cookies, requests and password changes

Any number of clients send requests to the web application or call `admin_cli`, each one at
its own pace, and a request may present any cookie that was ever issued, or none: a cookie is
a copy of a session, which its holder can keep, replay and share.

The history records what cannot be taken back: the cookies, each one with the cookie that was
presented for it, and the password changes.  A position in it names a cookie, so the cookies
form a forest, and a login session is one of its trees cut at the logins (`FromLogin`).

A cookie is used up by nobody, so the history is all there is to know of the past.  `HistoryOk`
says how each cookie came about from the one presented for it.
-/
import EarlyWarning.AdminSession
import EarlyWarning.Session
import EarlyWarning.Lib.Run
import Mathlib.Logic.Function.Basic

namespace EarlyWarning.SessionProtocol

open Lib

/-! ## Clients -/

/-- What a client does. -/
inductive Client
  | login (username password : String)
  | logout
  /-- a page that asks for no session -/
  | page
  /-- a page behind `require_admin` -/
  | adminPage
  /-- `change_admin_password` -/
  | changePassword (currentPassword newPassword confirmPassword : String)
  /-- `upsert_admin_user` -/
  | cli (username : String)
deriving DecidableEq

/-- The session of a request, and the cookie it was presented with. -/
structure Received where
  session : SessionData := {}
  parent : Option Nat := none
deriving DecidableEq

/-- What a cookie was issued for. -/
inductive Stamp
  /-- a login with the right password for this row -/
  | login (user : AdminUser) (now : Int)
  /-- a request that `require_admin` admitted -/
  | admitted (now : Int)
  /-- the same, and it changed the password -/
  | changed (now : Int)
  | other
deriving DecidableEq

/-- A cookie, as it was issued. -/
structure Cookie where
  session : SessionData
  parent : Option Nat
  stamp : Stamp
deriving DecidableEq

inductive Event (ι : Type)
  | issue (cookie : Cookie)
  /-- the password of `userId` changed, in a request that presented `parent`; the command line
  presents none -/
  | change (userId : Nat) (client : ι) (parent : Option Nat)
deriving DecidableEq

inductive Phase
  | idle
  /-- the cookie is decoded -/
  | received (request : Received)
  /-- the row is loaded -/
  | loaded (request : Received) (user : AdminUser)
  /-- `require_admin` has returned -/
  | admitted (request : Received) (user : AdminUser) (now : Int)
  /-- the new password is committed -/
  | changed (request : Received) (userId : Nat) (now : Int)
  /-- the handler is done, with this session -/
  | answered (request : Received) (stamp : Stamp)
  /-- the command line has its row, if there is one -/
  | loadedRow (row : Option AdminUser)
  | done
deriving DecidableEq

structure State (ι : Type) where
  clock : Int
  users : List AdminUser
  history : List (Event ι)
  phase : ι → Phase

inductive Label (ι : Type)
  | tick (now : Int)
  | present (i : ι) (cookie : Option Nat)
  /-- the SELECT of `login`, of `require_admin` or of `upsert_admin_user` -/
  | load (i : ι)
  /-- the request gets no further: a CSRF token that does not match, the login limiter, or a
  handler that neither checks nor changes the session -/
  | dismiss (i : ι) (token : Option String)
  /-- the password is verified; a right one establishes the session -/
  | login (i : ι) (now : Int) (token : String) (page : Option String)
  | logout (i : ι)
  /-- `validate_admin_session` -/
  | validate (i : ι) (now : Int)
  /-- the handler renders its page -/
  | render (i : ι) (token : Option String)
  /-- the UPDATE, or the INSERT, of a password change commits -/
  | commit (i : ι) (passwordHash : String)
  /-- `user.session_version` is read again -/
  | reread (i : ι)
  | respond (i : ι)

section

variable {ι : Type} [DecidableEq ι]
  (verifyPassword : String → String → Bool) (maxAgeSeconds idleTimeoutSeconds : Int)
  (clients : ι → Client)

def State.move (s : State ι) (i : ι) (p : Phase) : State ι :=
  { s with phase := Function.update s.phase i p }

/-- A page calls `ensure_csrf_token`, and other responses do not. -/
def rendered (session : SessionData) : Option String → SessionData
  | none => session
  | some token => ensureCsrfToken session token

/-- The session that a presented cookie decodes to. -/
def receive (history : List (Event ι)) : Option Nat → Option Received
  | none => some {}
  | some n =>
      match history[n]? with
      | some (.issue cookie) => some ⟨cookie.session, some n⟩
      | _ => none

/-- The SELECT of a request. -/
def loadUser (s : State ι) (request : Received) : Client → Option Phase
  | .login username _ =>
      match findUsername s.users username with
      | some user => some (.loaded request user)
      | none => some (.answered request .other)
  | .adminPage | .changePassword .. =>
      match request.session.adminUserId.bind (findUser s.users) with
      | some user => some (.loaded request user)
      | none => some (.answered { request with session := {} } .other)
  | _ => none

/-- The commit of a password change. -/
def commitPassword (s : State ι) (i : ι) (passwordHash : String) : Option (State ι) :=
  match s.phase i, clients i with
  | .admitted request user now, .changePassword currentPassword newPassword confirmPassword =>
      if passwordError currentPassword newPassword confirmPassword
          (verifyPassword currentPassword user.passwordHash) = "" then
        some { s.move i (.changed request user.id now) with
          users := updatePassword s.users user.id passwordHash (user.sessionVersion + 1)
          history := s.history ++ [.change user.id i request.parent] }
      else none
  | .loadedRow (some user), _ =>
      some { s.move i .done with
        users := updatePassword s.users user.id passwordHash (user.sessionVersion + 1)
        history := s.history ++ [.change user.id i none] }
  | .loadedRow none, .cli username =>
      -- the user name may have been taken in the meantime
      match findUsername s.users username with
      | some _ => some (s.move i .done)
      | none => some { s.move i .done with
          users := s.users ++
            [{ id := nextId (s.users.map AdminUser.id), username, passwordHash }] }
  | _, _ => none

def step (s : State ι) : Label ι → Option (State ι)
  | .tick now => if s.clock ≤ now then some { s with clock := now } else none
  | .present i cookie =>
      match s.phase i, clients i, receive s.history cookie with
      | .idle, .cli _, _ => none
      | .idle, _, some request => some (s.move i (.received request))
      | _, _, _ => none
  | .load i =>
      match s.phase i, clients i with
      | .received request, client => (loadUser s request client).map (s.move i)
      | .idle, .cli username => some (s.move i (.loadedRow (findUsername s.users username)))
      | _, _ => none
  | .dismiss i token =>
      match s.phase i with
      | .received request =>
          some (s.move i (.answered
            { request with session := rendered request.session token } .other))
      | _ => none
  | .login i now token page =>
      match s.phase i, clients i with
      | .loaded request user, .login _ password =>
          if s.clock ≤ now then
            if verifyPassword password user.passwordHash then
              some ({ s with clock := now }.move i (.answered
                { request with session := loginSession user token now } (.login user now)))
            else
              some ({ s with clock := now }.move i (.answered
                { request with session := rendered request.session page } .other))
          else none
      | _, _ => none
  | .logout i =>
      match s.phase i, clients i with
      | .received request, .logout =>
          some (s.move i (.answered { request with session := {} } .other))
      | _, _ => none
  | .validate i now =>
      match s.phase i, clients i with
      | .loaded request user, .adminPage | .loaded request user, .changePassword .. =>
          if s.clock ≤ now then
            match validateAdminSession request.session user maxAgeSeconds idleTimeoutSeconds
                now with
            | (true, session) =>
                some ({ s with clock := now }.move i
                  (.admitted { request with session } user now))
            | (false, session) =>
                some ({ s with clock := now }.move i (.answered { request with session } .other))
          else none
      | _, _ => none
  | .render i token =>
      match s.phase i with
      | .admitted request _ now =>
          some (s.move i (.answered
            { request with session := rendered request.session token }
            (.admitted now)))
      | _ => none
  | .commit i passwordHash => commitPassword verifyPassword clients s i passwordHash
  | .reread i =>
      match s.phase i with
      | .changed request userId now =>
          match findUser s.users userId with
          | some row => some (s.move i (.answered
              { request with
                session := { request.session with
                  adminSessionVersion := some row.sessionVersion } }
              (.changed now)))
          | none => none
      | _ => none
  | .respond i =>
      match s.phase i with
      | .answered request stamp =>
          some { s.move i .done with
            history := if request.session = {} then s.history
              else s.history ++ [.issue ⟨request.session, request.parent, stamp⟩] }
      | _ => none

end

/-- Nobody has come yet, and no cookie has been issued. -/
structure Initial {ι : Type} (s : State ι) : Prop where
  idle : ∀ i, s.phase i = .idle
  history : s.history = []

/-! ## What a step can do -/

section

variable {ι : Type} [DecidableEq ι]
  (verifyPassword : String → String → Bool) (maxAgeSeconds idleTimeoutSeconds : Int)
  (clients : ι → Client)

/-- What client `i` can do in the state `s`, and the state after it.  Only the commits say
which label they are. -/
inductive Act (s : State ι) (i : ι) : Label ι → State ι → Prop
  | receive {a : Label ι} {request : Received} {cookie : Option Nat} (hi : s.phase i = .idle)
      (h : receive s.history cookie = some request) : Act s i a (s.move i (.received request))
  | load {a : Label ι} {request : Received} {user : AdminUser}
      (hi : s.phase i = .received request) (hmem : user ∈ s.users)
      (hlogin : ∀ username password, clients i = .login username password →
        user.username = username) :
      Act s i a (s.move i (.loaded request user))
  | clear {a : Label ι} {request : Received} (hi : s.phase i = .received request) :
      Act s i a (s.move i (.answered { request with session := {} } .other))
  | dismiss {a : Label ι} {request : Received} {token : Option String} {now : Int}
      (hle : s.clock ≤ now)
      (hi : s.phase i = .received request ∨ ∃ user, s.phase i = .loaded request user) :
      Act s i a ({ s with clock := now }.move i
        (.answered { request with session := rendered request.session token } .other))
  | login {a : Label ι} {request : Received} {user : AdminUser} {username password token : String}
      {now : Int} (hle : s.clock ≤ now) (hi : s.phase i = .loaded request user)
      (hclient : clients i = .login username password)
      (hverify : verifyPassword password user.passwordHash = true) :
      Act s i a ({ s with clock := now }.move i
        (.answered { request with session := loginSession user token now } (.login user now)))
  | refuse {a : Label ι} {request : Received} {user : AdminUser} {now : Int} (hle : s.clock ≤ now)
      (hi : s.phase i = .loaded request user) :
      Act s i a ({ s with clock := now }.move i
        (.answered { request with session := {} } .other))
  | passes {a : Label ι} {request : Received} {user : AdminUser} {now : Int} (hle : s.clock ≤ now)
      (hi : s.phase i = .loaded request user)
      (haccepted : SessionAccepted request.session user maxAgeSeconds idleTimeoutSeconds now) :
      Act s i a ({ s with clock := now }.move i (.admitted
        { request with session := { request.session with lastActivityAt := some now } } user
        now))
  | render {a : Label ι} {request : Received} {user : AdminUser} {token : Option String} {now : Int}
      (hi : s.phase i = .admitted request user now) :
      Act s i a (s.move i (.answered
        { request with session := rendered request.session token } (.admitted now)))
  | commit {request : Received} {user : AdminUser} {now : Int} {passwordHash : String}
      (hi : s.phase i = .admitted request user now) :
      Act s i (.commit i passwordHash) { s.move i (.changed request user.id now) with
        users := updatePassword s.users user.id passwordHash (user.sessionVersion + 1)
        history := s.history ++ [.change user.id i request.parent] }
  | reread {a : Label ι} {request : Received} {row : AdminUser} {userId : Nat} {now : Int}
      (hi : s.phase i = .changed request userId now)
      (hfind : findUser s.users userId = some row) :
      Act s i a (s.move i (.answered
        { request with
          session := { request.session with adminSessionVersion := some row.sessionVersion } }
        (.changed now)))
  | loadRow {a : Label ι} {username : String} (hi : s.phase i = .idle) :
      Act s i a (s.move i (.loadedRow (findUsername s.users username)))
  | commitRow {user : AdminUser} {passwordHash : String}
      (hi : s.phase i = .loadedRow (some user)) :
      Act s i (.commit i passwordHash) { s.move i .done with
        users := updatePassword s.users user.id passwordHash (user.sessionVersion + 1)
        history := s.history ++ [.change user.id i none] }
  | insertRow {username passwordHash : String} (hi : s.phase i = .loadedRow none) :
      Act s i (.commit i passwordHash) { s.move i .done with
        users := s.users ++
          [{ id := nextId (s.users.map AdminUser.id), username, passwordHash }] }
  | taken {a : Label ι} (hi : s.phase i = .loadedRow none) : Act s i a (s.move i .done)
  | issue {a : Label ι} {request : Received} {stamp : Stamp}
      (hi : s.phase i = .answered request stamp) :
      Act s i a { s.move i .done with
        history := s.history ++ [.issue ⟨request.session, request.parent, stamp⟩] }
  | drop {a : Label ι} {request : Received} {stamp : Stamp}
      (hi : s.phase i = .answered request stamp) :
      Act s i a (s.move i .done)

variable {verifyPassword maxAgeSeconds idleTimeoutSeconds clients} {s t : State ι} {i : ι}

omit [DecidableEq ι] in
theorem loadUser_spec {request : Received} {p : Phase}
    (h : loadUser s request (clients i) = some p) :
    (∃ user ∈ s.users, p = .loaded request user ∧
      ∀ username password, clients i = .login username password → user.username = username) ∨
    p = .answered request .other ∨ p = .answered { request with session := {} } .other := by
  cases hc : clients i with
  | login username password =>
      simp only [hc, loadUser] at h
      split at h
      case h_1 user hfind =>
        refine .inl ⟨user, List.mem_of_find?_eq_some hfind, (Option.some.inj h).symm, ?_⟩
        intro username' password' heq
        cases heq
        simpa using List.find?_some hfind
      case h_2 => exact .inr (.inl (Option.some.inj h).symm)
  | adminPage =>
      simp only [hc, loadUser] at h
      split at h
      case h_1 user hfind =>
        obtain ⟨id, -, hid⟩ := Option.bind_eq_some_iff.mp hfind
        exact .inl ⟨user, List.mem_of_find?_eq_some hid, (Option.some.inj h).symm,
          fun _ _ heq => by cases heq⟩
      case h_2 => exact .inr (.inr (Option.some.inj h).symm)
  | changePassword =>
      simp only [hc, loadUser] at h
      split at h
      case h_1 user hfind =>
        obtain ⟨id, -, hid⟩ := Option.bind_eq_some_iff.mp hfind
        exact .inl ⟨user, List.mem_of_find?_eq_some hid, (Option.some.inj h).symm,
          fun _ _ heq => by cases heq⟩
      case h_2 => exact .inr (.inr (Option.some.inj h).symm)
  | logout => simp [hc, loadUser] at h
  | page => simp [hc, loadUser] at h
  | cli => simp [hc, loadUser] at h

theorem step_validate {now : Int}
    (h : step verifyPassword maxAgeSeconds idleTimeoutSeconds clients s (.validate i now) =
      some t) :
    s.clock ≤ now ∧ ∃ request user, s.phase i = .loaded request user ∧
      ((SessionAccepted request.session user maxAgeSeconds idleTimeoutSeconds now ∧
        t = { s with clock := now }.move i (.admitted
          { request with session := { request.session with lastActivityAt := some now } } user
          now)) ∨
      t = { s with clock := now }.move i (.answered { request with session := {} } .other)) := by
  -- whichever page it is
  have hvalid : ∀ (request : Received) (user : AdminUser), s.phase i = .loaded request user →
      (if s.clock ≤ now then
        match validateAdminSession request.session user maxAgeSeconds idleTimeoutSeconds now with
        | (true, session) =>
            some (({ s with clock := now } : State ι).move i
              (.admitted { request with session } user now))
        | (false, session) =>
            some (({ s with clock := now } : State ι).move i
              (.answered { request with session } .other))
      else none) = some t →
      s.clock ≤ now ∧ ∃ request user, s.phase i = .loaded request user ∧
        ((SessionAccepted request.session user maxAgeSeconds idleTimeoutSeconds now ∧
          t = ({ s with clock := now } : State ι).move i (.admitted
            { request with session := { request.session with lastActivityAt := some now } } user
            now)) ∨
        t = ({ s with clock := now } : State ι).move i
          (.answered { request with session := {} } .other)) := by
    intro request user hi h
    split at h
    case isFalse => cases h
    case isTrue hle =>
      refine ⟨hle, request, user, hi, ?_⟩
      rcases validateAdminSession_cases request.session user maxAgeSeconds idleTimeoutSeconds now
        with ⟨haccepted, heq⟩ | ⟨-, heq⟩ <;> rw [heq] at h
      · exact .inl ⟨haccepted, (Option.some.inj h).symm⟩
      · exact .inr (Option.some.inj h).symm
  simp only [step] at h
  split at h
  case h_1 request user hi _ => exact hvalid request user hi h
  case h_2 request user _ _ _ hi _ => exact hvalid request user hi h
  case h_3 => cases h

/-- Time passes, or one client acts. -/
theorem step_act {a : Label ι}
    (h : step verifyPassword maxAgeSeconds idleTimeoutSeconds clients s a = some t) :
    (∃ now, s.clock ≤ now ∧ t = { s with clock := now }) ∨
      ∃ i, Act verifyPassword maxAgeSeconds idleTimeoutSeconds clients s i a t := by
  have hpage : ∀ (i : ι) (request : Received),
      s.move i (.answered request .other) = ({ s with clock := s.clock } : State ι).move i
        (.answered { request with session := rendered request.session none } .other) :=
    fun _ _ => rfl
  cases a with
  | tick now =>
      simp only [step] at h
      split at h
      case isTrue hle => exact .inl ⟨now, hle, (Option.some.inj h).symm⟩
      case isFalse => cases h
  | present i cookie =>
      simp only [step] at h
      split at h
      case h_1 => cases h
      case h_2 request hi hr hclient =>
        cases h
        exact .inr ⟨i, .receive hi hr⟩
      case h_3 => cases h
  | load i =>
      simp only [step] at h
      split at h
      case h_1 _ request hi =>
        obtain ⟨p, hp, rfl⟩ := Option.map_eq_some_iff.mp h
        rcases loadUser_spec hp with ⟨user, hmem, rfl, hlogin⟩ | rfl | rfl
        · exact .inr ⟨i, .load hi hmem hlogin⟩
        · rw [hpage]
          exact .inr ⟨i, .dismiss (Int.le_refl s.clock) (.inl hi)⟩
        · exact .inr ⟨i, .clear hi⟩
      case h_2 hi _ =>
        cases h
        exact .inr ⟨i, .loadRow hi⟩
      case h_3 => cases h
  | dismiss i token =>
      simp only [step] at h
      split at h
      case h_1 request hi =>
        cases h
        exact .inr ⟨i, .dismiss (Int.le_refl s.clock) (.inl hi)⟩
      case h_2 => cases h
  | login i now token page =>
      simp only [step] at h
      split at h
      case h_2 => cases h
      case h_1 request user username password hi hc =>
        split at h
        case isFalse => cases h
        case isTrue hle =>
          split at h
          case isTrue hverify =>
            cases h
            exact .inr ⟨i, .login hle hi hc hverify⟩
          case isFalse =>
            cases h
            exact .inr ⟨i, .dismiss hle (.inr ⟨user, hi⟩)⟩
  | logout i =>
      simp only [step] at h
      split at h
      case h_1 request hi _ =>
        cases h
        exact .inr ⟨i, .clear hi⟩
      case h_2 => cases h
  | validate i now =>
      obtain ⟨hle, request, user, hi, ⟨haccepted, rfl⟩ | rfl⟩ := step_validate h
      · exact .inr ⟨i, .passes hle hi haccepted⟩
      · exact .inr ⟨i, .refuse hle hi⟩
  | render i token =>
      simp only [step] at h
      split at h
      case h_1 request user now hi =>
        cases h
        exact .inr ⟨i, .render hi⟩
      case h_2 => cases h
  | commit i passwordHash =>
      simp only [step, commitPassword] at h
      split at h
      case h_1 request user now _ _ _ hi _ =>
        split at h
        case isTrue =>
          cases h
          exact .inr ⟨i, .commit hi⟩
        case isFalse => cases h
      case h_2 user hi =>
        cases h
        exact .inr ⟨i, .commitRow hi⟩
      case h_3 username hi _ =>
        split at h
        case h_1 =>
          cases h
          exact .inr ⟨i, .taken hi⟩
        case h_2 =>
          cases h
          exact .inr ⟨i, .insertRow hi⟩
      case h_4 => cases h
  | reread i =>
      simp only [step] at h
      split at h
      case h_1 request userId now hi =>
        split at h
        case h_1 row hfind =>
          cases h
          exact .inr ⟨i, .reread hi hfind⟩
        case h_2 => cases h
      case h_2 => cases h
  | respond i =>
      simp only [step] at h
      split at h
      case h_1 request stamp hi =>
        cases h
        by_cases hempty : request.session = {}
        · rw [if_pos hempty]
          exact .inr ⟨i, .drop hi⟩
        · rw [if_neg hempty]
          exact .inr ⟨i, .issue hi⟩
      case h_2 => cases h

end

/-! ## One administrator -/

namespace Sample

def password : String := "correct horse battery"

/-- `bcrypt.hashpw` of it. -/
def passwordHash : String := "$2b$04$abcdefghijklmnopqrstuuqREtd3VJD2QVZbuFskFSLk6eRIrQoOS"

def verifyPassword (given hash : String) : Bool := given = password ∧ hash = passwordHash

section

variable {ι : Type}

/-- Nobody has logged in yet. -/
def start : State ι where
  clock := 1000
  users := [{ id := 1, username := "admin", passwordHash }]
  history := []
  phase := fun _ => .idle

theorem start_initial : Initial (start : State ι) := ⟨fun _ => rfl, rfl⟩

/-- Client `i` logs in at the moment `now`. -/
def loginAt (i : ι) (now : Int) : List (Label ι) :=
  [.present i none, .load i, .login i now "token" none, .respond i]

end

end Sample

end EarlyWarning.SessionProtocol
