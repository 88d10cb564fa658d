/-
# `SessionInvalidation` — a password change ends the other sessions

A password change takes the version it loaded, adds one, and writes that much later.  When
another change commits in between, both write the same version, and the cookies issued between
the two commits go on being admitted (`changed_twice`).  And the handler puts into its cookie
the version it reads after its commit, which is another one's when that one commits first.

Where no change commits between the load and the re-read of another one of the same user
(`Undisturbed`), the versions of a user count its changes, and a cookie whose version is the
current one has seen them all.
-/
import EarlyWarning.SessionTimeout
import Mathlib.Data.Fin.VecNotation
import Mathlib.Data.Fintype.Pi
import Mathlib.Tactic.FinCases

namespace EarlyWarning.SessionProtocol

open Lib

/-! ## Versions -/

/-- `session_version` of a row, when there is one. -/
def currentVersion (users : List AdminUser) (userId : Nat) : Option Int :=
  (findUser users userId).map AdminUser.sessionVersion

/-- The version is not ahead of the row. -/
def VersionOk (users : List AdminUser) (userId : Nat) (version : Option Int) : Prop :=
  ∃ v current, version = some v ∧ currentVersion users userId = some current ∧ v ≤ current

/-- The same of the version in a session. -/
def SessionOk (users : List AdminUser) (session : SessionData) : Prop :=
  ∀ userId, session.adminUserId = some userId →
    VersionOk users userId session.adminSessionVersion

/-- No change of the user comes after position `p`. -/
def LastChange {ι : Type} (history : List (Event ι)) (userId p : Nat) : Prop :=
  ∀ q client parent, p < q → history[q]? ≠ some (.change userId client parent)

/-- A session that was given the version after its own password change. -/
def OwnChange {ι : Type} (users : List AdminUser) (history : List (Event ι))
    (session : SessionData) (parent : Option Nat) : Prop :=
  ∀ userId, session.adminUserId = some userId →
    ∃ p client, history[p]? = some (.change userId client parent) ∧
      (session.adminSessionVersion = currentVersion users userId →
        LastChange history userId p)

/-! ## The invariant -/

section

variable {ι : Type}

/-- The row that a password change has loaded, and will write. -/
def Phase.changing : Phase → Option AdminUser
  | .admitted _ user _ => some user
  | .loadedRow row => row
  | _ => none

/-- When a password change commits, the row still has the version that was loaded, and no
other change of the user stands between its commit and its re-read. -/
def Undisturbed (s : State ι) : Label ι → Prop
  | .commit i _ => ∀ user, (s.phase i).changing = some user →
      currentVersion s.users user.id = some user.sessionVersion ∧
        ∀ j request now, s.phase j ≠ .changed request user.id now
  | _ => True

def VersionPhase (users : List AdminUser) (history : List (Event ι)) (i : ι) : Phase → Prop
  | .received request => SessionOk users request.session
  | .loaded request user => SessionOk users request.session ∧
      VersionOk users user.id (some user.sessionVersion)
  | .admitted request user _ => SessionOk users request.session ∧
      VersionOk users user.id (some user.sessionVersion) ∧
      request.session.adminUserId = some user.id
  | .changed request userId _ => SessionOk users request.session ∧
      request.session.adminUserId = some userId ∧
      ∃ p, history[p]? = some (.change userId i request.parent) ∧ LastChange history userId p
  | .answered request stamp => SessionOk users request.session ∧
      ∀ now, stamp = .changed now → OwnChange users history request.session request.parent
  | .loadedRow row => ∀ user ∈ row, VersionOk users user.id (some user.sessionVersion)
  | _ => True

/-- What the versions say of the cookie at position `n`. -/
structure VersionCookie (users : List AdminUser) (history : List (Event ι)) (n : Nat)
    (cookie : Cookie) : Prop where
  session : SessionOk users cookie.session
  /-- a cookie with the current version has seen every change -/
  fresh : ∀ userId, cookie.session.adminUserId = some userId →
    cookie.session.adminSessionVersion = currentVersion users userId →
    LastChange history userId n
  own : ∀ now, cookie.stamp = .changed now →
    OwnChange users history cookie.session cookie.parent

structure VersionInv (s : State ι) : Prop where
  primaryKey : (s.users.map AdminUser.id).Nodup
  phases : ∀ i, VersionPhase s.users s.history i (s.phase i)
  cookies : ∀ n cookie, s.history[n]? = some (.issue cookie) →
    VersionCookie s.users s.history n cookie

end

variable {ι : Type} {verifyPassword : String → String → Bool}
  {maxAgeSeconds idleTimeoutSeconds : Int} {clients : ι → Client} {s t : State ι} {i : ι}
  {users users' : List AdminUser} {history : List (Event ι)} {userId n p : Nat}
  {session : SessionData} {parent : Option Nat} {user row : AdminUser} {cookie : Cookie}
  {version : Option Int} {hash : String} {phase : Phase}

/-! ## The rows -/

theorem findUser_of_mem (hkey : (users.map AdminUser.id).Nodup) (h : user ∈ users) :
    findUser users user.id = some user := by
  induction users with
  | nil => cases h
  | cons first rest ih =>
      obtain ⟨hfirst, hrest⟩ := List.nodup_cons.mp hkey
      simp only [findUser, List.find?_cons]
      rcases List.mem_cons.mp h with rfl | h
      · simp
      · have hne : first.id ≠ user.id := by
          intro heq
          exact hfirst (heq ▸ List.mem_map_of_mem h)
        simpa [hne, findUser] using ih hrest h

theorem currentVersion_eq_some {v : Int} :
    currentVersion users userId = some v ↔
      ∃ row, findUser users userId = some row ∧ row.sessionVersion = v := by
  simp [currentVersion]

theorem versionOk_of_mem (hkey : (users.map AdminUser.id).Nodup) (h : user ∈ users) :
    VersionOk users user.id (some user.sessionVersion) :=
  ⟨_, _, rfl, currentVersion_eq_some.mpr ⟨user, findUser_of_mem hkey h, rfl⟩, Int.le_refl _⟩

theorem currentVersion_updatePassword_self {v : Int} (h : currentVersion users userId ≠ none) :
    currentVersion (updatePassword users userId hash v) userId = some v := by
  cases hfind : findUser users userId with
  | none => exact absurd (by simp [currentVersion, hfind]) h
  | some row =>
      exact currentVersion_eq_some.mpr ⟨_, findUser_updatePassword_self hfind, rfl⟩

theorem currentVersion_updatePassword_ne {v : Int} {userId' : Nat} (h : userId' ≠ userId) :
    currentVersion (updatePassword users userId hash v) userId' =
      currentVersion users userId' := by
  simp only [currentVersion, findUser_updatePassword_ne h]

theorem currentVersion_append {new : AdminUser} (h : currentVersion users userId ≠ none) :
    currentVersion (users ++ [new]) userId = currentVersion users userId := by
  cases hfind : findUser users userId with
  | none => exact absurd (by simp [currentVersion, hfind]) h
  | some row =>
      have hfind' : List.find? (fun user => user.id = userId) users = some row := hfind
      simp [currentVersion, findUser, List.find?_append, hfind']

theorem map_id_updatePassword {v : Int} :
    (updatePassword users userId hash v).map AdminUser.id = users.map AdminUser.id := by
  simp only [updatePassword, List.map_map]
  refine List.map_congr_left fun user _ => ?_
  simp only [Function.comp_apply]
  split <;> rfl

/-! ## An event at the end of the history -/

theorem LastChange.issue (h : LastChange history userId p) :
    LastChange (history ++ [.issue cookie]) userId p := by
  intro q client parent hlt heq
  rcases getElem?_snoc heq with heq | ⟨-, heq⟩
  · exact h q client parent hlt heq
  · cases heq

/-- A change of another user. -/
theorem LastChange.other {client : ι} {userId' : Nat} (h : LastChange history userId p)
    (hne : userId ≠ userId') :
    LastChange (history ++ [.change userId' client parent]) userId p := by
  intro q client' parent' hlt heq
  rcases getElem?_snoc heq with heq | ⟨-, heq⟩
  · exact h q client' parent' hlt heq
  · exact hne (Event.change.inj heq).1

theorem lastChange_of_length_le (h : history.length ≤ p + 1) : LastChange history userId p := by
  intro q client parent hlt heq
  have hq := (List.getElem?_eq_some_iff.mp heq).1
  omega

theorem LastChange.last {e : Event ι} : LastChange (history ++ [e]) userId history.length :=
  lastChange_of_length_le (by simp)

theorem OwnChange.issue (h : OwnChange users history session parent) :
    OwnChange users (history ++ [.issue cookie]) session parent := by
  intro userId hid
  obtain ⟨p, client, hp, hlast⟩ := h userId hid
  exact ⟨p, client, getElem?_append_old hp, fun hcurrent => (hlast hcurrent).issue⟩

theorem VersionPhase.issue (h : VersionPhase users history i phase) :
    VersionPhase users (history ++ [.issue cookie]) i phase := by
  cases phase with
  | received => exact h
  | loaded => exact h
  | admitted => exact h
  | changed request userId now =>
      obtain ⟨hsession, hid, p, hp, hlast⟩ := h
      exact ⟨hsession, hid, p, getElem?_append_old hp, hlast.issue⟩
  | answered request stamp => exact ⟨h.1, fun now hstamp => (h.2 now hstamp).issue⟩
  | loadedRow => exact h
  | idle => trivial
  | done => trivial

theorem VersionCookie.issue {new : Cookie} (h : VersionCookie users history n cookie) :
    VersionCookie users (history ++ [.issue new]) n cookie :=
  ⟨h.session, fun userId hid hcurrent => (h.fresh userId hid hcurrent).issue,
    fun now hstamp => (h.own now hstamp).issue⟩

/-! ## A change of the password -/

section Change

variable {client : ι} {v : Int}

theorem VersionOk.change {userId' : Nat} (h : VersionOk users userId' version)
    (hcurrent : currentVersion users userId = some v) :
    VersionOk (updatePassword users userId hash (v + 1)) userId' version := by
  obtain ⟨w, current, hversion, hcurrent', hle⟩ := h
  by_cases hne : userId' = userId
  · subst hne
    obtain rfl : current = v := Option.some.inj (hcurrent'.symm.trans hcurrent)
    exact ⟨w, current + 1, hversion,
      currentVersion_updatePassword_self (by rw [hcurrent]; exact Option.some_ne_none _), by omega⟩
  · exact ⟨w, current, hversion, by rw [currentVersion_updatePassword_ne hne, hcurrent'], hle⟩

theorem SessionOk.change (h : SessionOk users session)
    (hcurrent : currentVersion users userId = some v) :
    SessionOk (updatePassword users userId hash (v + 1)) session :=
  fun userId' hid => (h userId' hid).change hcurrent

/-- After the change no session has the current version but those of other users. -/
theorem SessionOk.behind {userId' : Nat} (h : SessionOk users session)
    (hcurrent : currentVersion users userId = some v)
    (hid : session.adminUserId = some userId')
    (hversion : session.adminSessionVersion =
      currentVersion (updatePassword users userId hash (v + 1)) userId') :
    userId' ≠ userId ∧ session.adminSessionVersion = currentVersion users userId' := by
  obtain ⟨w, current, hw, hcurrent', hle⟩ := h userId' hid
  by_cases hne : userId' = userId
  · subst hne
    rw [currentVersion_updatePassword_self (by rw [hcurrent]; exact Option.some_ne_none _),
      hw] at hversion
    have heq : w = v + 1 := Option.some.inj hversion
    have heq' : current = v := Option.some.inj (hcurrent'.symm.trans hcurrent)
    omega
  · rw [currentVersion_updatePassword_ne hne] at hversion
    exact ⟨hne, hversion⟩

theorem OwnChange.change (h : OwnChange users history session parent)
    (hsession : SessionOk users session) (hcurrent : currentVersion users userId = some v)
    {parent' : Option Nat} :
    OwnChange (updatePassword users userId hash (v + 1))
      (history ++ [.change userId client parent']) session parent := by
  intro userId' hid
  obtain ⟨p, client', hp, hlast⟩ := h userId' hid
  refine ⟨p, client', getElem?_append_old hp, fun hversion => ?_⟩
  obtain ⟨hne, hversion'⟩ := hsession.behind hcurrent hid hversion
  exact (hlast hversion').other hne

theorem VersionPhase.change {parent : Option Nat} (h : VersionPhase users history i phase)
    (hcurrent : currentVersion users userId = some v)
    (hchanged : ∀ request now, phase ≠ .changed request userId now) :
    VersionPhase (updatePassword users userId hash (v + 1))
      (history ++ [.change userId client parent]) i phase := by
  cases phase with
  | received => exact SessionOk.change h hcurrent
  | loaded => exact ⟨h.1.change hcurrent, h.2.change hcurrent⟩
  | admitted => exact ⟨h.1.change hcurrent, h.2.1.change hcurrent, h.2.2⟩
  | changed request userId' now =>
      obtain ⟨hsession, hid, p, hp, hlast⟩ := h
      have hne : userId' ≠ userId := by
        rintro rfl
        exact hchanged request now rfl
      exact ⟨hsession.change hcurrent, hid, p, getElem?_append_old hp, hlast.other hne⟩
  | answered request stamp =>
      exact ⟨h.1.change hcurrent, fun now hstamp => (h.2 now hstamp).change h.1 hcurrent⟩
  | loadedRow row => exact fun user huser => (h user huser).change hcurrent
  | idle => trivial
  | done => trivial

theorem VersionCookie.change (h : VersionCookie users history n cookie)
    (hcurrent : currentVersion users userId = some v) {parent : Option Nat} :
    VersionCookie (updatePassword users userId hash (v + 1))
      (history ++ [.change userId client parent]) n cookie := by
  refine ⟨h.session.change hcurrent, fun userId' hid hversion => ?_,
    fun now hstamp => (h.own now hstamp).change h.session hcurrent⟩
  obtain ⟨hne, hversion'⟩ := h.session.behind hcurrent hid hversion
  exact (h.fresh userId' hid hversion').other hne

end Change

/-! ## A new row -/

section Insert

variable {new : AdminUser}

theorem VersionOk.insert (h : VersionOk users userId version) :
    VersionOk (users ++ [new]) userId version := by
  obtain ⟨v, current, hversion, hcurrent, hle⟩ := h
  refine ⟨v, current, hversion, ?_, hle⟩
  rw [currentVersion_append (by rw [hcurrent]; exact Option.some_ne_none _), hcurrent]

/-- The row of a session was there before. -/
theorem SessionOk.insert_current (h : SessionOk users session)
    (hid : session.adminUserId = some userId) :
    currentVersion (users ++ [new]) userId = currentVersion users userId := by
  obtain ⟨v, current, -, hcurrent, -⟩ := h userId hid
  exact currentVersion_append (by rw [hcurrent]; exact Option.some_ne_none _)

theorem SessionOk.insert (h : SessionOk users session) : SessionOk (users ++ [new]) session :=
  fun userId hid => (h userId hid).insert

theorem OwnChange.insert (h : OwnChange users history session parent)
    (hsession : SessionOk users session) :
    OwnChange (users ++ [new]) history session parent := by
  intro userId hid
  obtain ⟨p, client, hp, hlast⟩ := h userId hid
  refine ⟨p, client, hp, fun hversion => hlast ?_⟩
  rwa [hsession.insert_current hid] at hversion

theorem VersionPhase.insert (h : VersionPhase users history i phase) :
    VersionPhase (users ++ [new]) history i phase := by
  cases phase with
  | received => exact SessionOk.insert h
  | loaded => exact ⟨h.1.insert, h.2.insert⟩
  | admitted => exact ⟨h.1.insert, h.2.1.insert, h.2.2⟩
  | changed => exact ⟨h.1.insert, h.2⟩
  | answered => exact ⟨h.1.insert, fun now hstamp => (h.2 now hstamp).insert h.1⟩
  | loadedRow => exact fun user huser => (h user huser).insert
  | idle => trivial
  | done => trivial

theorem VersionCookie.insert (h : VersionCookie users history n cookie) :
    VersionCookie (users ++ [new]) history n cookie := by
  refine ⟨h.session.insert, fun userId hid hversion => h.fresh userId hid ?_,
    fun now hstamp => (h.own now hstamp).insert h.session⟩
  rwa [h.session.insert_current hid] at hversion

end Insert

/-! ## Every undisturbed step keeps the invariant -/

theorem SessionOk.empty : SessionOk users {} := fun _ hid => by cases hid

theorem SessionOk.congr {session' : SessionData} (h : SessionOk users session)
    (hid : session'.adminUserId = session.adminUserId)
    (hversion : session'.adminSessionVersion = session.adminSessionVersion) :
    SessionOk users session' := by
  intro userId hid'
  rw [hversion]
  exact h userId (hid.symm.trans hid')

theorem SessionOk.rendered (h : SessionOk users session) (token : Option String) :
    SessionOk users (rendered session token) := by
  cases token with
  | none => exact h
  | some token =>
      obtain ⟨csrfToken, heq⟩ := ensureCsrfToken_eq session token
      rw [show SessionProtocol.rendered session (some token) = { session with csrfToken } from heq]
      exact h.congr rfl rfl

theorem Initial.versionInv (h : Initial s) (hkey : (s.users.map AdminUser.id).Nodup) :
    VersionInv s := by
  refine ⟨hkey, fun i => ?_, fun n cookie hn => ?_⟩
  · rw [h.idle i]
    trivial
  · rw [h.history] at hn
    cases hn

variable [DecidableEq ι]

omit [DecidableEq ι] in
theorem VersionInv.tick (h : VersionInv s) {clock : Int} : VersionInv { s with clock } :=
  ⟨h.primaryKey, h.phases, h.cookies⟩

/-- Client `i` gets to `phase`. -/
theorem VersionInv.move (h : VersionInv s) (hphase : VersionPhase s.users s.history i phase) :
    VersionInv (s.move i phase) := by
  refine ⟨h.primaryKey, fun j => ?_, h.cookies⟩
  show VersionPhase s.users s.history j (Function.update s.phase i phase j)
  by_cases hj : j = i
  · rw [hj, Function.update_self]
    exact hphase
  · rw [Function.update_of_ne hj]
    exact h.phases j

theorem VersionInv.done (h : VersionInv s) : VersionInv (s.move i .done) :=
  h.move (show VersionPhase s.users s.history i .done from trivial)

/-- A cookie is issued. -/
theorem VersionInv.issue (h : VersionInv s) {request : Received} {stamp : Stamp}
    (hi : s.phase i = .answered request stamp) :
    VersionInv { s.move i .done with
      history := s.history ++ [.issue ⟨request.session, request.parent, stamp⟩] } := by
  refine ⟨h.primaryKey, fun j => ?_, fun n cookie hn => ?_⟩
  · exact (h.done.phases j).issue
  · rcases getElem?_snoc hn with hn | ⟨rfl, he⟩
    · exact (h.cookies n cookie hn).issue
    · cases he
      have hphase := h.phases i
      rw [hi] at hphase
      exact ⟨hphase.1, fun userId _ _ => LastChange.last,
        fun now hstamp => (hphase.2 now hstamp).issue⟩

/-- The password of `userId` changes. -/
theorem VersionInv.change (h : VersionInv s) {v : Int} {parent : Option Nat}
    (hcurrent : currentVersion s.users userId = some v)
    (hchanged : ∀ j request now, s.phase j ≠ .changed request userId now)
    (hphase : VersionPhase (updatePassword s.users userId hash (v + 1))
      (s.history ++ [.change userId i parent]) i phase) :
    VersionInv { s.move i phase with
      users := updatePassword s.users userId hash (v + 1)
      history := s.history ++ [.change userId i parent] } := by
  refine ⟨?_, fun j => ?_, fun n cookie hn => ?_⟩
  · show ((updatePassword s.users userId hash (v + 1)).map AdminUser.id).Nodup
    rw [map_id_updatePassword]
    exact h.primaryKey
  · show VersionPhase _ _ j (Function.update s.phase i phase j)
    by_cases hj : j = i
    · rw [hj, Function.update_self]
      exact hphase
    · rw [Function.update_of_ne hj]
      exact (h.phases j).change hcurrent (hchanged j)
  · rcases getElem?_snoc hn with hn | ⟨-, he⟩
    · exact (h.cookies n cookie hn).change hcurrent
    · cases he

theorem VersionInv.insert (h : VersionInv s) {username : String} :
    VersionInv { s.move i .done with
      users := s.users ++
        [{ id := nextId (s.users.map AdminUser.id), username, passwordHash := hash }] } := by
  refine ⟨?_, fun j => ?_, fun n cookie hn => (h.cookies n cookie hn).insert⟩
  · simp only [List.map_append, List.map_cons, List.map_nil]
    refine List.nodup_append.mpr ⟨h.primaryKey, List.nodup_singleton _, ?_⟩
    intro id hid id' hid' heq
    rw [List.mem_singleton.mp hid'] at heq
    exact nextId_not_mem _ (heq ▸ hid)
  · exact (h.done.phases j).insert

theorem Act.versionInv {a : Label ι} (h : VersionInv s) (hundisturbed : Undisturbed s a)
    (hact : Act verifyPassword maxAgeSeconds idleTimeoutSeconds clients s i a t) :
    VersionInv t := by
  have hi := h.phases i
  have hempty : ∀ parent : Option Nat,
      VersionPhase s.users s.history i (.answered ⟨{}, parent⟩ .other) := fun _ =>
    ⟨.empty, fun now hstamp => by cases hstamp⟩
  cases hact with
  | receive hidle hr =>
      refine h.move (show SessionOk _ _ from ?_)
      rcases receive_spec hr with rfl | ⟨n, cookie, -, hn, hsession⟩
      · exact .empty
      · exact hsession ▸ (h.cookies n cookie hn).session
  | load hphase hmem hlogin =>
      rw [hphase] at hi
      exact h.move ⟨hi, versionOk_of_mem h.primaryKey hmem⟩
  | clear hphase => exact h.move (hempty _)
  | @dismiss _ request token now hle hphase =>
      have hsession : SessionOk s.users request.session := by
        rcases hphase with hphase | ⟨user, hphase⟩ <;> rw [hphase] at hi
        · exact hi
        · exact hi.1
      exact h.tick.move ⟨hsession.rendered token, fun now hstamp => by cases hstamp⟩
  | login hle hphase hclient hverify =>
      rw [hphase] at hi
      refine h.tick.move ⟨fun userId hid => ?_, fun now hstamp => by cases hstamp⟩
      cases hid
      exact hi.2
  | refuse hle hphase => exact h.tick.move (hempty _)
  | passes hle hphase haccepted =>
      rw [hphase] at hi
      exact h.tick.move ⟨hi.1.congr rfl rfl, hi.2, haccepted.1⟩
  | @render _ request user token now hphase =>
      rw [hphase] at hi
      exact h.move ⟨hi.1.rendered token, fun now hstamp => by cases hstamp⟩
  | @commit request user now passwordHash hphase =>
      rw [hphase] at hi
      obtain ⟨hcurrent, hchanged⟩ := hundisturbed user (by rw [hphase]; rfl)
      exact h.change hcurrent hchanged ⟨hi.1.change hcurrent, hi.2.2, s.history.length,
        List.getElem?_concat_length, LastChange.last⟩
  | @reread _ request row userId now hphase hfind =>
      rw [hphase] at hi
      obtain ⟨hsession, hid, p, hp, hlast⟩ := hi
      refine h.move ⟨fun userId' hid' => ?_, fun now hstamp userId' hid' => ?_⟩
      · obtain rfl : userId = userId' := Option.some.inj (hid.symm.trans hid')
        exact ⟨_, _, rfl, currentVersion_eq_some.mpr ⟨row, hfind, rfl⟩, Int.le_refl _⟩
      · obtain rfl : userId = userId' := Option.some.inj (hid.symm.trans hid')
        exact ⟨p, i, hp, fun _ => hlast⟩
  | @loadRow _ username hphase =>
      refine h.move (show VersionPhase _ _ i (.loadedRow _) from fun user huser => ?_)
      exact versionOk_of_mem h.primaryKey (List.mem_of_find?_eq_some huser)
  | @commitRow user passwordHash hphase =>
      obtain ⟨hcurrent, hchanged⟩ := hundisturbed user (by rw [hphase]; rfl)
      exact h.change hcurrent hchanged trivial
  | insertRow hphase => exact h.insert
  | taken hphase => exact h.done
  | issue hphase => exact h.issue hphase
  | drop hphase => exact h.done

theorem step_versionInv {a : Label ι} (h : VersionInv s) (hundisturbed : Undisturbed s a)
    (hstep : step verifyPassword maxAgeSeconds idleTimeoutSeconds clients s a = some t) :
    VersionInv t := by
  rcases step_act hstep with ⟨now, -, rfl⟩ | ⟨i, hact⟩
  · exact h.tick
  · exact hact.versionInv h hundisturbed

theorem run_versionInv {labels : List (Label ι)} (h : VersionInv s)
    (hevery : Every (step verifyPassword maxAgeSeconds idleTimeoutSeconds clients) Undisturbed s
      labels)
    (hrun : fire (step verifyPassword maxAgeSeconds idleTimeoutSeconds clients) s labels =
      some t) : VersionInv t :=
  fire_every (fun _ _ _ hs hundisturbed hstep => step_versionInv hs hundisturbed hstep) h hevery
    hrun

/-! ## After the last change -/

/-- `require_admin` lets the session through when its SELECT finds these rows. -/
def Admits (users : List AdminUser) (session : SessionData)
    (maxAgeSeconds idleTimeoutSeconds now : Int) : Prop :=
  ∃ row, session.adminUserId.bind (findUser users) = some row ∧
    (validateAdminSession session row maxAgeSeconds idleTimeoutSeconds now).1 = true

/-- What a password change at position `p` leaves of the sessions of its user. -/
structure SessionsEnded (maxAgeSeconds idleTimeoutSeconds : Int) (s : State ι) (userId p : Nat)
    (parent : Option Nat) : Prop where
  /-- no cookie from before it is admitted -/
  before : ∀ n cookie now, n < p → s.history[n]? = some (.issue cookie) →
    cookie.session.adminUserId = some userId →
    ¬Admits s.users cookie.session maxAgeSeconds idleTimeoutSeconds now
  /-- an admitted cookie from a login before it is on the branch that made the change -/
  branch : ∀ n cookie now r root login a, s.history[n]? = some (.issue cookie) →
    cookie.session.adminUserId = some userId →
    Admits s.users cookie.session maxAgeSeconds idleTimeoutSeconds now →
    Inherits s.history n r → s.history[r]? = some (.issue root) → root.stamp = .login login a →
    r < p → ∃ m, parent = some m ∧ Inherits s.history m r

omit [DecidableEq ι] in
/-- An admitted session has the current version. -/
theorem Admits.current {now : Int}
    (h : Admits users session maxAgeSeconds idleTimeoutSeconds now) :
    ∃ userId, session.adminUserId = some userId ∧
      session.adminSessionVersion = currentVersion users userId := by
  obtain ⟨row, hbind, hvalid⟩ := h
  obtain ⟨userId, hid, hfind⟩ := Option.bind_eq_some_iff.mp hbind
  refine ⟨userId, hid, ?_⟩
  rcases validateAdminSession_cases session row maxAgeSeconds idleTimeoutSeconds now with
    ⟨⟨-, hversion, -⟩, -⟩ | ⟨-, heq⟩
  · rw [hversion, currentVersion_eq_some.mpr ⟨row, hfind, rfl⟩]
  · rw [heq] at hvalid
    cases hvalid

omit [DecidableEq ι] in
/-- The row that `require_admin` loads. -/
theorem loadUser_loaded {request request' : Received}
    (hclient : clients i = .adminPage ∨ ∃ current new confirm,
      clients i = .changePassword current new confirm)
    (h : loadUser s request (clients i) = some (.loaded request' row)) :
    request' = request ∧ request.session.adminUserId.bind (findUser s.users) = some row := by
  have hload : loadUser s request .adminPage = some (.loaded request' row) := by
    rcases hclient with hclient | ⟨current, new, confirm, hclient⟩
    · rwa [hclient] at h
    · rwa [hclient] at h
  unfold loadUser at hload
  cases hbind : request.session.adminUserId.bind (findUser s.users) with
  | none =>
      rw [hbind] at hload
      cases hload
  | some user =>
      rw [hbind] at hload
      cases hload
      exact ⟨rfl, rfl⟩

/-- That is what a request does that loads its row in `s` and is checked later on, with whatever
the other clients did in between. -/
theorem admits_of_admitted {request request' : Received} {u v w : State ι} {now : Int}
    (hi : s.phase i = .received request)
    (hload : step verifyPassword maxAgeSeconds idleTimeoutSeconds clients s (.load i) = some u)
    (hkept : v.phase i = u.phase i)
    (hvalidate : step verifyPassword maxAgeSeconds idleTimeoutSeconds clients v
      (.validate i now) = some w)
    (hadmitted : w.phase i = .admitted request' user now) :
    Admits s.users request.session maxAgeSeconds idleTimeoutSeconds now := by
  have hclient : clients i = .adminPage ∨ ∃ current new confirm,
      clients i = .changePassword current new confirm := by
    simp only [step] at hvalidate
    split at hvalidate
    case h_1 hclient => exact .inl hclient
    case h_2 hclient => exact .inr ⟨_, _, _, hclient⟩
    case h_3 => cases hvalidate
  obtain ⟨-, loaded, row, hloaded, ⟨haccepted, rfl⟩ | rfl⟩ := step_validate hvalidate
  · simp only [step, hi] at hload
    obtain ⟨phase, hphase, rfl⟩ := Option.map_eq_some_iff.mp hload
    rw [hkept, show (s.move i phase).phase i = phase from Function.update_self ..] at hloaded
    subst hloaded
    obtain ⟨rfl, hrow⟩ := loadUser_loaded hclient hphase
    refine ⟨row, hrow, ?_⟩
    rcases validateAdminSession_cases loaded.session row maxAgeSeconds idleTimeoutSeconds now with
      ⟨-, heq⟩ | ⟨hrefused, -⟩
    · rw [heq]
    · exact absurd haccepted hrefused
  · cases (Function.update_self ..).symm.trans hadmitted

omit [DecidableEq ι] in
/-- A user has one last change. -/
theorem LastChange.unique {q : Nat} {client client' : ι} {parent' : Option Nat}
    (hp : history[p]? = some (.change userId client parent)) (hlast : LastChange history userId p)
    (hq : history[q]? = some (.change userId client' parent'))
    (hlast' : LastChange history userId q) : p = q := by
  rcases Nat.lt_trichotomy p q with hlt | heq | hlt
  · exact absurd hq (hlast q client' parent' hlt)
  · exact heq
  · exact absurd hp (hlast' p client parent hlt)

omit [DecidableEq ι] in
/-- A cookie with the current version whose branch began before the last change is on the branch
of the session that made the change. -/
theorem VersionInv.inherits (h : VersionInv s) (htime : TimeInv verifyPassword clients s)
    {client : ι} (hp : s.history[p]? = some (.change userId client parent))
    (hlast : LastChange s.history userId p) {r : Nat} (hr : r < p) :
    ∀ n cookie, s.history[n]? = some (.issue cookie) →
      cookie.session.adminUserId = some userId →
      cookie.session.adminSessionVersion = currentVersion s.users userId →
      Inherits s.history n r → ∃ m, parent = some m ∧ Inherits s.history m r := by
  intro n
  induction n using Nat.strongRecOn with
  | ind n ih =>
      intro cookie hn hid hversion hinherits
      have hcookie := h.cookies n cookie hn
      have hle : p ≤ n := by
        refine Nat.le_of_not_lt fun hlt => ?_
        exact hcookie.fresh userId hid hversion p client parent hlt hp
      rcases hinherits.cases_head with rfl | ⟨m, hresumes, hrest⟩
      · omega
      · obtain ⟨before, hlt, hm, hid', -, hsame⟩ := htime.resumed hn hresumes hid
        by_cases hchanged : ∃ now, cookie.stamp = .changed now
        · -- the change of this very session is the last one
          obtain ⟨now, hstamp⟩ := hchanged
          obtain ⟨q, client', hq, hlast'⟩ := hcookie.own now hstamp userId hid
          obtain rfl := hlast.unique hp hq (hlast' hversion)
          obtain ⟨cookie', hn', -, hparent⟩ := hresumes
          cases Option.some.inj (hn.symm.trans hn')
          cases Option.some.inj (hp.symm.trans hq)
          exact ⟨m, hparent, hrest⟩
        · have hversion' := hsame fun now hstamp => hchanged ⟨now, hstamp⟩
          exact ih m hlt before hm hid' (hversion'.trans hversion) hrest

/-- **A password change ends the other sessions**, in every run where no change of a user commits
while another one of that user stands between its load and its re-read. -/
theorem password_change_ends_sessions (h : Initial s) (hkey : (s.users.map AdminUser.id).Nodup)
    {labels : List (Label ι)}
    (hevery : Every (step verifyPassword maxAgeSeconds idleTimeoutSeconds clients) Undisturbed s
      labels)
    (hrun : fire (step verifyPassword maxAgeSeconds idleTimeoutSeconds clients) s labels =
      some t)
    {client : ι} (hp : t.history[p]? = some (.change userId client parent))
    (hlast : LastChange t.history userId p) :
    SessionsEnded maxAgeSeconds idleTimeoutSeconds t userId p parent := by
  have hinv := run_versionInv (h.versionInv hkey) hevery hrun
  have htime := run_timeInv h.timeInv hrun
  refine ⟨fun n cookie now hlt hn hid hadmits => ?_,
    fun n cookie now r root login a hn hid hadmits hinherits hr hlogin hlt => ?_⟩
  · obtain ⟨userId', hid', hversion⟩ := hadmits.current
    obtain rfl : userId = userId' := Option.some.inj (hid.symm.trans hid')
    exact (hinv.cookies n cookie hn).fresh userId hid hversion p client parent hlt hp
  · obtain ⟨userId', hid', hversion⟩ := hadmits.current
    obtain rfl : userId = userId' := Option.some.inj (hid.symm.trans hid')
    exact hinv.inherits htime hp hlast hlt n cookie hn hid hversion hinherits

/-! ## One change, and two -/

/-- Client 0 logs in, client 1 changes the password; clients 2 and 3 do the same. -/
def loginThenChange : Fin 5 → Client
  | 0 | 2 => .login "admin" Sample.password
  | 1 | 3 => .changePassword Sample.password "staple battery" "staple battery"
  | 4 => .adminPage

/-- Client `i` gets as far as the check of the current password, with the cookie `n`. -/
def admission (i : Fin 5) (n : Nat) (now : Int) : List (Label (Fin 5)) :=
  [.present i (some n), .load i, .validate i now]

/-- A session changes its password, with no other change under way. -/
theorem password_change_ends_sessions_oneChange :
    ∃ t, fire (step Sample.verifyPassword 28800 1800 loginThenChange) Sample.start
        ((Sample.loginAt 0 1000 ++ admission 1 0 1010) ++
          [.commit 1 "hash", .reread 1, .respond 1]) = some t ∧
      SessionsEnded 28800 1800 t 1 1 (some 0) := by
  have hadmitted : (fire (step Sample.verifyPassword 28800 1800 loginThenChange) Sample.start
      (Sample.loginAt 0 1000 ++ admission 1 0 1010)).map
        (fun t => (t.users, t.phase)) =
      some ([⟨1, "admin", Sample.passwordHash, 1⟩],
        ![.done, .admitted ⟨⟨some 1, some 1000, some 1010, some 1, some "token"⟩, some 0⟩
          ⟨1, "admin", Sample.passwordHash, 1⟩ 1010, .idle, .idle, .idle]) := by decide +kernel
  have hrun : (fire (step Sample.verifyPassword 28800 1800 loginThenChange) Sample.start
      ((Sample.loginAt 0 1000 ++ admission 1 0 1010) ++
        [.commit 1 "hash", .reread 1, .respond 1])).map State.history =
      some [.issue ⟨⟨some 1, some 1000, some 1000, some 1, some "token"⟩, none,
          .login ⟨1, "admin", Sample.passwordHash, 1⟩ 1000⟩,
        .change 1 1 (some 0),
        .issue ⟨⟨some 1, some 1000, some 1010, some 2, some "token"⟩, some 0,
          .changed 1010⟩] := by decide +kernel
  obtain ⟨t, ht, hhistory⟩ := Option.map_eq_some_iff.mp hrun
  have hchange : t.history[1]? = some (.change 1 1 (some 0)) := by
    rw [hhistory]
    rfl
  have hlast : LastChange t.history 1 1 := by
    rw [hhistory]
    exact show LastChange ([_] ++ [_] ++ [_]) 1 [_].length from LastChange.last.issue
  refine ⟨t, ht, password_change_ends_sessions Sample.start_initial (by decide) ?_ ht hchange
    hlast⟩
  refine (every_of_forall_mem (by simp [Sample.loginAt, admission, Undisturbed])).append
    fun u hu => ⟨?_, fun _ _ => ⟨trivial, fun _ _ => ⟨trivial, fun _ _ => trivial⟩⟩⟩
  rw [hu] at hadmitted
  obtain ⟨husers, hphase⟩ := Prod.mk.inj (Option.some.inj hadmitted)
  intro user huser
  rw [hphase] at huser
  cases huser
  rw [husers, hphase]
  refine ⟨rfl, fun j request now hchanged => ?_⟩
  fin_cases j <;> cases hchanged

/-- **Two changes at once leave a session alive.**  Both load version 1 and both write version 2;
the cookie issued between their commits is admitted after the second. -/
theorem changed_twice :
    Initial (Sample.start : State (Fin 5)) ∧
    ∃ t u client parent cookie request user,
      fire (step Sample.verifyPassword 28800 1800 loginThenChange) Sample.start
        (Sample.loginAt 0 1000 ++ Sample.loginAt 2 1000 ++ admission 1 0 1010 ++
          admission 3 1 1010 ++ [.commit 1 "hash", .reread 1, .respond 1, .commit 3 "hash'"]) =
        some t ∧
      t.history[4]? = some (.change 1 client parent) ∧ LastChange t.history 1 4 ∧
      t.history[3]? = some (.issue cookie) ∧ cookie.session.adminUserId = some 1 ∧
      Admits t.users cookie.session 28800 1800 1020 ∧
      ¬SessionsEnded 28800 1800 t 1 4 parent ∧
      -- and a page is shown with it
      fire (step Sample.verifyPassword 28800 1800 loginThenChange) t (admission 4 3 1020) =
        some u ∧
      u.phase 4 = .admitted request user 1020 := by
  have hrun : (fire (step Sample.verifyPassword 28800 1800 loginThenChange) Sample.start
      (Sample.loginAt 0 1000 ++ Sample.loginAt 2 1000 ++ admission 1 0 1010 ++
          admission 3 1 1010 ++ [.commit 1 "hash", .reread 1, .respond 1, .commit 3 "hash'"])).bind
      (fun t => (fire (step Sample.verifyPassword 28800 1800 loginThenChange) t
        (admission 4 3 1020)).map fun u => (t.users, t.history.drop 3, u.phase 4)) =
      some ([⟨1, "admin", "hash'", 2⟩],
        [.issue ⟨⟨some 1, some 1000, some 1010, some 2, some "token"⟩, some 0, .changed 1010⟩,
          .change 1 3 (some 1)],
        .admitted ⟨⟨some 1, some 1000, some 1020, some 2, some "token"⟩, some 3⟩
          ⟨1, "admin", "hash'", 2⟩ 1020) := by decide +kernel
  obtain ⟨t, ht, hvisit⟩ := Option.bind_eq_some_iff.mp hrun
  obtain ⟨u, hu, hstate⟩ := Option.map_eq_some_iff.mp hvisit
  obtain ⟨husers, hstate⟩ := Prod.mk.inj hstate
  obtain ⟨hhistory, hphase⟩ := Prod.mk.inj hstate
  have hcookie := congrArg (fun l => l[0]?) hhistory
  have hchange := congrArg (fun l => l[1]?) hhistory
  simp only [List.getElem?_drop] at hcookie hchange
  have hlength := congrArg List.length hhistory
  simp only [List.length_drop, List.length_cons, List.length_nil] at hlength
  have hadmits : Admits t.users
      ⟨some 1, some 1000, some 1010, some 2, some "token"⟩ 28800 1800 1020 := by
    rw [husers]
    exact ⟨_, rfl, by decide⟩
  exact ⟨Sample.start_initial, t, u, 3, some 1, _, _, _, ht, hchange,
    lastChange_of_length_le (by omega), hcookie, rfl, hadmits,
    fun hended => hended.before 3 _ 1020 (by decide) hcookie rfl hadmits, hu, hphase⟩

end EarlyWarning.SessionProtocol
