/-
# `SessionTimeout` — the timeouts hold along every branch

A cookie can be replayed by many clients at once, so the cookies issued for it branch, and
each branch goes on by itself.  Every cookie with an administrator in it hangs below the
cookie of a login of that administrator, with the moment of this login in it, and with the
moment of the last request on its own branch that was admitted.

The invariant says of each cookie how it differs from the one presented for it; the branch
down to the login is put together from this afterwards, by induction on the position.
-/
import EarlyWarning.SessionProtocol
import EarlyWarning.Lib.Log
import Mathlib.Logic.Relation

namespace EarlyWarning.SessionProtocol

open Lib

/-! ## The forest of cookies -/

/-- The cookie at `n` goes on with the session of the cookie at `m`. -/
def Resumes {ι : Type} (history : List (Event ι)) (n m : Nat) : Prop :=
  ∃ cookie, history[n]? = some (.issue cookie) ∧ (∀ user now, cookie.stamp ≠ .login user now) ∧
    cookie.parent = some m

/-- The same, over any number of requests. -/
def Inherits {ι : Type} (history : List (Event ι)) : Nat → Nat → Prop :=
  Relation.ReflTransGen (Resumes history)

/-- The moment that a cookie stamps. -/
def Stamp.time : Stamp → Option Int
  | .login _ now => some now
  | .admitted now => some now
  | .changed now => some now
  | .other => none

/-! ## The invariant -/

section

variable {ι : Type} (verifyPassword : String → String → Bool) (clients : ι → Client)

/-- The session of the cookie that was presented, or none. -/
def FromCookie (history : List (Event ι)) (request : Received) : Prop :=
  request = {} ∨ ∃ n cookie, request.parent = some n ∧ history[n]? = some (.issue cookie) ∧
    request.session = cookie.session

/-- A request that was admitted at `now`: the session of the cookie it presented with a new
`last_activity_at`. -/
structure Continues (history : List (Event ι)) (clock : Int) (request : Received) (now : Int) :
    Prop where
  cookie : ∃ n cookie, request.parent = some n ∧ history[n]? = some (.issue cookie) ∧
    cookie.session.adminUserId = request.session.adminUserId ∧
    cookie.session.authenticatedAt = request.session.authenticatedAt ∧
    cookie.session.adminSessionVersion = request.session.adminSessionVersion
  authenticated : ∃ authenticatedAt, request.session.authenticatedAt = some authenticatedAt ∧
    authenticatedAt ≤ now
  active : request.session.lastActivityAt = some now
  past : now ≤ clock

/-- What an answer makes of the session. -/
def AnswerOk (history : List (Event ι)) (clock : Int) (request : Received) : Stamp → Prop
  | .login user now =>
      request.session.adminUserId = some user.id ∧
      request.session.authenticatedAt = some now ∧
      request.session.lastActivityAt = some now ∧ now ≤ clock ∧
      ∃ i password, clients i = .login user.username password ∧
        verifyPassword password user.passwordHash = true
  | .admitted now => Continues history clock request now
  | .changed now => ∃ adminSessionVersion, Continues history clock
      { request with session := { request.session with adminSessionVersion } } now
  | .other => request.session.adminUserId = none ∨
      ∃ n cookie, request.parent = some n ∧ history[n]? = some (.issue cookie) ∧
        cookie.session.adminUserId = request.session.adminUserId ∧
        cookie.session.authenticatedAt = request.session.authenticatedAt ∧
        cookie.session.lastActivityAt = request.session.lastActivityAt ∧
        cookie.session.adminSessionVersion = request.session.adminSessionVersion

def PhaseOk (history : List (Event ι)) (clock : Int) (i : ι) : Phase → Prop
  | .received request => FromCookie history request
  | .loaded request user => FromCookie history request ∧
      ∀ username password, clients i = .login username password → user.username = username
  | .admitted request _ now => Continues history clock request now
  | .changed request _ now => Continues history clock request now
  | .answered request stamp => AnswerOk verifyPassword clients history clock request stamp
  | _ => True

structure TimeInv (s : State ι) : Prop where
  phases : ∀ i, PhaseOk verifyPassword clients s.history s.clock i (s.phase i)
  history : ∀ pre cookie post, s.history = pre ++ .issue cookie :: post →
    AnswerOk verifyPassword clients pre s.clock ⟨cookie.session, cookie.parent⟩ cookie.stamp

end

variable {ι : Type} {verifyPassword : String → String → Bool}
  {maxAgeSeconds idleTimeoutSeconds : Int} {clients : ι → Client} {s t : State ι} {i : ι}
  {history more : List (Event ι)} {clock clock' now : Int} {request : Received}
  {stamp : Stamp} {p : Phase} {n m k : Nat} {cookie : Cookie}

theorem FromCookie.append (h : FromCookie history request) :
    FromCookie (history ++ more) request := by
  rcases h with rfl | ⟨n, cookie, hparent, hn, hsession⟩
  · exact .inl rfl
  · exact .inr ⟨n, cookie, hparent, getElem?_append_old hn, hsession⟩

theorem Continues.later (h : Continues history clock request now) (hle : clock ≤ clock') :
    Continues (history ++ more) clock' request now := by
  obtain ⟨⟨n, cookie, hparent, hn, hsame⟩, hauthenticated, hactive, hpast⟩ := h
  exact ⟨⟨n, cookie, hparent, getElem?_append_old hn, hsame⟩, hauthenticated, hactive,
    Int.le_trans hpast hle⟩

theorem AnswerOk.later (h : AnswerOk verifyPassword clients history clock request stamp)
    (hle : clock ≤ clock') :
    AnswerOk verifyPassword clients (history ++ more) clock' request stamp := by
  cases stamp with
  | login user now =>
      obtain ⟨hid, hauthenticated, hactive, hpast, hclient⟩ := h
      exact ⟨hid, hauthenticated, hactive, Int.le_trans hpast hle, hclient⟩
  | admitted now => exact Continues.later h hle
  | changed now => exact h.imp fun _ h => Continues.later h hle
  | other =>
      rcases h with hnone | ⟨n, cookie, hparent, hn, hsame⟩
      · exact .inl hnone
      · exact .inr ⟨n, cookie, hparent, getElem?_append_old hn, hsame⟩

theorem PhaseOk.later (h : PhaseOk verifyPassword clients history clock i p)
    (hle : clock ≤ clock') :
    PhaseOk verifyPassword clients (history ++ more) clock' i p := by
  cases p with
  | received => exact FromCookie.append h
  | loaded => exact ⟨FromCookie.append h.1, h.2⟩
  | admitted => exact Continues.later h hle
  | changed => exact Continues.later h hle
  | answered => exact AnswerOk.later h hle
  | idle => trivial
  | loadedRow => trivial
  | done => trivial

theorem AnswerOk.passes (h : AnswerOk verifyPassword clients history clock request stamp)
    (hle : clock ≤ clock') : AnswerOk verifyPassword clients history clock' request stamp := by
  rw [← List.append_nil history]
  exact h.later hle

/-! ## Every step keeps it -/

/-- A page that was not admitted changes the token at most. -/
theorem FromCookie.answerOk (h : FromCookie history request) (token : Option String) :
    AnswerOk verifyPassword clients history clock
      { request with session := rendered request.session token } .other := by
  have hrendered : ∃ csrfToken, rendered request.session token =
      { request.session with csrfToken } := by
    cases token with
    | none => exact ⟨request.session.csrfToken, rfl⟩
    | some token => exact ensureCsrfToken_eq request.session token
  obtain ⟨csrfToken, heq⟩ := hrendered
  rw [heq]
  rcases h with rfl | ⟨n, cookie, hparent, hn, hsession⟩
  · exact .inl rfl
  · right
    refine ⟨n, cookie, hparent, hn, ?_⟩
    simp only [hsession, and_self]

theorem Continues.render (h : Continues history clock request now) (token : Option String) :
    Continues history clock { request with session := rendered request.session token } now := by
  cases token with
  | none => exact h
  | some token =>
      obtain ⟨csrfToken, heq⟩ := ensureCsrfToken_eq request.session token
      obtain ⟨hcookie, hauthenticated, hactive, hpast⟩ := h
      refine ⟨?_, ?_, ?_, hpast⟩ <;> simp only [rendered, heq]
      · exact hcookie
      · exact hauthenticated
      · exact hactive

/-- An accepted session is that of a cookie. -/
theorem FromCookie.continues {user : AdminUser} (h : FromCookie history request)
    (haccepted : SessionAccepted request.session user maxAgeSeconds idleTimeoutSeconds now) :
    Continues history now
      { request with session := { request.session with lastActivityAt := some now } } now := by
  obtain ⟨hid, -, authenticatedAt, hauthenticated, -, -, hle, -⟩ := haccepted
  rcases h with rfl | ⟨n, cookie, hparent, hn, hsession⟩
  · cases hid
  · refine ⟨⟨n, cookie, hparent, hn, ?_⟩, ⟨authenticatedAt, hauthenticated, hle⟩, rfl,
      Int.le_refl now⟩
    simp only [hsession, and_self]

theorem receive_spec {presented : Option Nat} (h : receive history presented = some request) :
    FromCookie history request := by
  cases presented with
  | none => exact .inl (Option.some.inj h).symm
  | some n =>
      simp only [receive] at h
      split at h
      case h_1 cookie hn =>
        cases h
        exact .inr ⟨n, cookie, rfl, hn, rfl⟩
      case h_2 => cases h

theorem Initial.timeInv (h : Initial s) : TimeInv verifyPassword clients s := by
  refine ⟨fun i => ?_, fun pre cookie post hsplit => ?_⟩
  · rw [h.idle i]
    trivial
  · rw [h.history] at hsplit
    cases pre <;> cases hsplit

variable [DecidableEq ι]

/-- Client `i` gets to `p`, and the history may grow by an event that is no cookie. -/
theorem TimeInv.move (h : TimeInv verifyPassword clients s) (hle : s.clock ≤ t.clock)
    (hhistory : t.history = s.history ∨
      ∃ e, t.history = s.history ++ [e] ∧ ∀ cookie, e = .issue cookie →
        AnswerOk verifyPassword clients s.history t.clock ⟨cookie.session, cookie.parent⟩
          cookie.stamp)
    (hphase : t.phase = Function.update s.phase i p)
    (hp : PhaseOk verifyPassword clients s.history t.clock i p) :
    TimeInv verifyPassword clients t := by
  obtain ⟨more, hmore⟩ : ∃ more, t.history = s.history ++ more := by
    rcases hhistory with heq | ⟨e, heq, -⟩
    · exact ⟨[], by rw [heq, List.append_nil]⟩
    · exact ⟨[e], heq⟩
  refine ⟨fun j => ?_, fun pre cookie post hsplit => ?_⟩
  · rw [hphase, hmore]
    by_cases hj : j = i
    · rw [hj, Function.update_self]
      exact hp.later (Int.le_refl _)
    · rw [Function.update_of_ne hj]
      exact (h.phases j).later hle
  · have hold : ∀ pre cookie post, s.history = pre ++ .issue cookie :: post →
        AnswerOk verifyPassword clients pre t.clock ⟨cookie.session, cookie.parent⟩
          cookie.stamp := by
      intro pre cookie post hsplit
      exact (h.history pre cookie post hsplit).passes hle
    rcases hhistory with heq | ⟨e, heq, hissue⟩
    · exact hold pre cookie post (heq ▸ hsplit)
    · rw [heq] at hsplit
      rcases snoc_split hsplit with ⟨rfl, he, -⟩ | ⟨post', -, hsplit'⟩
      · exact hissue cookie he.symm
      · exact hold pre cookie post' hsplit'

theorem Act.timeInv {a : Label ι} (h : TimeInv verifyPassword clients s)
    (hact : Act verifyPassword maxAgeSeconds idleTimeoutSeconds clients s i a t) :
    TimeInv verifyPassword clients t := by
  have hi := h.phases i
  cases hact with
  | receive hidle hr => exact h.move (Int.le_refl _) (.inl rfl) rfl (receive_spec hr)
  | load hphase hmem hlogin =>
      rw [hphase] at hi
      exact h.move (Int.le_refl _) (.inl rfl) rfl ⟨hi, hlogin⟩
  | clear hphase => exact h.move (Int.le_refl _) (.inl rfl) rfl (.inl rfl)
  | @dismiss _ request token now hle hphase =>
      have hcookie : FromCookie s.history request := by
        rcases hphase with hphase | ⟨user, hphase⟩ <;> rw [hphase] at hi
        · exact hi
        · exact hi.1
      exact h.move hle (.inl rfl) rfl
        (show AnswerOk verifyPassword clients _ now _ .other from hcookie.answerOk token)
  | @login _ request user username password token now hle hphase hclient hverify =>
      rw [hphase] at hi
      refine h.move hle (.inl rfl) rfl ⟨rfl, rfl, rfl, Int.le_refl _, i, password, ?_, hverify⟩
      rw [hi.2 username password hclient, hclient]
  | refuse hle hphase => exact h.move hle (.inl rfl) rfl (.inl rfl)
  | passes hle hphase haccepted =>
      rw [hphase] at hi
      exact h.move hle (.inl rfl) rfl (hi.1.continues haccepted)
  | @render _ request user token now hphase =>
      rw [hphase] at hi
      exact h.move (Int.le_refl _) (.inl rfl) rfl (Continues.render hi token)
  | commit hphase =>
      rw [hphase] at hi
      exact h.move (Int.le_refl _) (.inr ⟨_, rfl, fun _ he => by cases he⟩) rfl hi
  | reread hphase hfind =>
      rw [hphase] at hi
      exact h.move (Int.le_refl _) (.inl rfl) rfl ⟨_, hi⟩
  | loadRow hphase => exact h.move (Int.le_refl _) (.inl rfl) rfl trivial
  | commitRow hphase =>
      exact h.move (Int.le_refl _) (.inr ⟨_, rfl, fun _ he => by cases he⟩) rfl trivial
  | insertRow hphase => exact h.move (Int.le_refl _) (.inl rfl) rfl trivial
  | taken hphase => exact h.move (Int.le_refl _) (.inl rfl) rfl trivial
  | issue hphase =>
      rw [hphase] at hi
      refine h.move (Int.le_refl _) (.inr ⟨_, rfl, fun cookie he => ?_⟩) rfl trivial
      cases he
      exact hi
  | drop hphase => exact h.move (Int.le_refl _) (.inl rfl) rfl trivial

theorem step_timeInv {a : Label ι} (h : TimeInv verifyPassword clients s)
    (hstep : step verifyPassword maxAgeSeconds idleTimeoutSeconds clients s a = some t) :
    TimeInv verifyPassword clients t := by
  rcases step_act hstep with ⟨now, hle, rfl⟩ | ⟨i, hact⟩
  · refine ⟨fun i => ?_, fun pre cookie post hsplit => ?_⟩
    · show PhaseOk _ _ s.history now i (s.phase i)
      rw [← List.append_nil s.history]
      exact (h.phases i).later hle
    · exact (h.history pre cookie post hsplit).passes hle
  · exact hact.timeInv h

theorem run_timeInv {labels : List (Label ι)} (h : TimeInv verifyPassword clients s)
    (hrun : fire (step verifyPassword maxAgeSeconds idleTimeoutSeconds clients) s labels =
      some t) : TimeInv verifyPassword clients t :=
  fire_invariant (fun _ _ _ hs hstep => step_timeInv hs hstep) h hrun

/-! ## The branch down to the login -/

section Branch

variable {u : Nat}

omit [DecidableEq ι] in
/-- A cookie that resumes a session is of the administrator and the login of the cookie
presented for it, and but for a password change of the version. -/
theorem TimeInv.resumed (h : TimeInv verifyPassword clients s)
    (hn : s.history[n]? = some (.issue cookie)) (hresumes : Resumes s.history n m)
    (hid : cookie.session.adminUserId = some u) :
    ∃ parent, m < n ∧ s.history[m]? = some (.issue parent) ∧
      parent.session.adminUserId = some u ∧
      parent.session.authenticatedAt = cookie.session.authenticatedAt ∧
      ((∀ now, cookie.stamp ≠ .changed now) →
        parent.session.adminSessionVersion = cookie.session.adminSessionVersion) := by
  obtain ⟨cookie', hn', hlogin, hm⟩ := hresumes
  cases Option.some.inj (hn.symm.trans hn')
  obtain ⟨hsplit, hlength⟩ := split_at_getElem? hn
  have hok := h.history _ cookie _ hsplit
  -- the cookie that was presented is one of those before this one
  have hbefore : ∀ m' parent, cookie.parent = some m' →
      (s.history.take n)[m']? = some (.issue parent) →
      m < n ∧ s.history[m]? = some (.issue parent) := by
    intro m' parent hparent hm'
    obtain rfl : m' = m := Option.some.inj (hparent.symm.trans hm)
    have hlt := (List.getElem?_eq_some_iff.mp hm').1
    refine ⟨by omega, ?_⟩
    rwa [List.getElem?_take_of_lt (by omega)] at hm'
  cases hstamp : cookie.stamp with
  | login user now => exact absurd hstamp (hlogin user now)
  | admitted now =>
      rw [hstamp] at hok
      obtain ⟨m', parent, hparent, hm', hid', ha, hversion⟩ := hok.cookie
      obtain ⟨hlt, hm''⟩ := hbefore m' parent hparent hm'
      exact ⟨parent, hlt, hm'', hid'.trans hid, ha, fun _ => hversion⟩
  | changed now =>
      rw [hstamp] at hok
      obtain ⟨version, hok⟩ := hok
      obtain ⟨m', parent, hparent, hm', hid', ha, -⟩ := hok.cookie
      obtain ⟨hlt, hm''⟩ := hbefore m' parent hparent hm'
      exact ⟨parent, hlt, hm'', hid'.trans hid, ha, fun hne => absurd rfl (hne now)⟩
  | other =>
      rw [hstamp] at hok
      rcases hok with hnone | ⟨m', parent, hparent, hm', hid', ha, -, hversion⟩
      · cases hnone.symm.trans hid
      · obtain ⟨hlt, hm''⟩ := hbefore m' parent hparent hm'
        exact ⟨parent, hlt, hm'', hid'.trans hid, ha, fun _ => hversion⟩

/-- From the cookie at `n` a branch leads to the login of `userId` at the moment `a`, past the
cookie at `m`, which stamped the moment `last`. -/
structure Lineage (verifyPassword : String → String → Bool) (clients : ι → Client)
    (history : List (Event ι)) (n m r userId : Nat) (a last : Int) : Prop where
  login : ∃ root user client password, history[r]? = some (.issue root) ∧
    root.stamp = .login user a ∧ user.id = userId ∧
    clients client = .login user.username password ∧
    verifyPassword password user.passwordHash = true
  stamped : ∃ cookie, history[m]? = some (.issue cookie) ∧ cookie.stamp.time = some last
  branch : Inherits history n m ∧ Inherits history m r

omit [DecidableEq ι] in
/-- The cookie at `n` resumes the session of a cookie with a lineage. -/
theorem Lineage.resume {n' m r userId : Nat} {a last : Int}
    (h : Lineage verifyPassword clients history n' m r userId a last)
    (hn : Resumes history n n') : Lineage verifyPassword clients history n m r userId a last :=
  ⟨h.login, h.stamped, h.branch.1.head hn, h.branch.2⟩

omit [DecidableEq ι] in
/-- And stamps it. -/
theorem Lineage.active {n' m r userId : Nat} {a last : Int}
    (h : Lineage verifyPassword clients history n' m r userId a last)
    (hn : history[n]? = some (.issue cookie)) (hresumes : Resumes history n n')
    (hstamp : cookie.stamp.time = some now) :
    Lineage verifyPassword clients history n n r userId a now :=
  ⟨h.login, ⟨cookie, hn, hstamp⟩, .refl, (h.branch.1.trans h.branch.2).head hresumes⟩

omit [DecidableEq ι] in
/-- Every cookie of an administrator has a lineage, with the moments that are in it. -/
theorem TimeInv.lineage (h : TimeInv verifyPassword clients s) :
    ∀ n cookie, s.history[n]? = some (.issue cookie) → cookie.session.adminUserId = some u →
      ∃ m r a last, Lineage verifyPassword clients s.history n m r u a last ∧
        cookie.session.authenticatedAt = some a ∧ cookie.session.lastActivityAt = some last ∧
        a ≤ last := by
  intro n
  induction n using Nat.strongRecOn with
  | ind n ih =>
      intro cookie hn hid
      have hok := h.history _ cookie _ (split_at_getElem? hn).1
      -- the lineage of the cookie that was presented
      have hparent : ∀ m, cookie.parent = some m → (∀ user now, cookie.stamp ≠ .login user now) →
          Resumes s.history n m ∧ ∃ parent m' r a last,
            s.history[m]? = some (.issue parent) ∧
            Lineage verifyPassword clients s.history m m' r u a last ∧
            cookie.session.authenticatedAt = some a ∧
            parent.session.lastActivityAt = some last ∧ a ≤ last := by
        intro m hm hlogin
        have hresumes : Resumes s.history n m := ⟨cookie, hn, hlogin, hm⟩
        obtain ⟨parent, hlt, hm', hid', ha, -⟩ := h.resumed hn hresumes hid
        obtain ⟨m', r, a, last, hlineage, ha', hlast, hle⟩ := ih m hlt parent hm' hid'
        exact ⟨hresumes, parent, m', r, a, last, hm', hlineage, ha.symm.trans ha', hlast, hle⟩
      have hcontinues : ∀ now adminSessionVersion, cookie.stamp.time = some now →
          (∀ user now, cookie.stamp ≠ .login user now) →
          Continues (s.history.take n) s.clock
            ⟨{ cookie.session with adminSessionVersion }, cookie.parent⟩ now →
          ∃ m r a last, Lineage verifyPassword clients s.history n m r u a last ∧
            cookie.session.authenticatedAt = some a ∧
            cookie.session.lastActivityAt = some last ∧ a ≤ last := by
        rintro now version hstamp hlogin ⟨⟨m, -, hm, -⟩, ⟨a, ha, hle⟩, hactive, -⟩
        obtain ⟨hresumes, parent, m', r, a', last, -, hlineage, ha', -⟩ := hparent m hm hlogin
        obtain rfl : a' = a := Option.some.inj (ha'.symm.trans ha)
        exact ⟨n, r, a', now, hlineage.active hn hresumes hstamp, ha, hactive, hle⟩
      cases hstamp : cookie.stamp with
      | login user now =>
          rw [hstamp] at hok
          obtain ⟨hid', ha, hactive, -, client, password, hclient, hverify⟩ := hok
          have huser : user.id = u := Option.some.inj (hid'.symm.trans hid)
          exact ⟨n, n, now, now, ⟨⟨cookie, user, client, password, hn, hstamp, huser, hclient,
            hverify⟩, ⟨cookie, hn, by rw [hstamp]; rfl⟩, .refl, .refl⟩, ha, hactive,
            Int.le_refl now⟩
      | admitted now =>
          rw [hstamp] at hok
          exact hcontinues now _ (by rw [hstamp]; rfl) (fun _ _ => by simp [hstamp]) hok
      | changed now =>
          rw [hstamp] at hok
          obtain ⟨version, hok⟩ := hok
          exact hcontinues now version (by rw [hstamp]; rfl) (fun _ _ => by simp [hstamp]) hok
      | other =>
          rw [hstamp] at hok
          rcases hok with hnone | ⟨m, parent, hm, hm', -, -, hactive, -⟩
          · cases hnone.symm.trans hid
          · obtain ⟨hresumes, parent', m', r, a, last, hm'', hlineage, ha, hlast, hle⟩ :=
              hparent m hm fun _ _ => by simp [hstamp]
            have hlt := (List.getElem?_eq_some_iff.mp hm').1
            rw [List.getElem?_take_of_lt (by simp only [List.length_take] at hlt; omega)] at hm'
            cases Option.some.inj (hm'.symm.trans hm'')
            exact ⟨m', r, a, last, hlineage.resume hresumes, ha, hactive.symm.trans hlast, hle⟩

end Branch

/-! ## The timeouts -/

/-- What is known of a request that is admitted at the moment `now`, with the session it
presented and its cookie. -/
structure Admission (verifyPassword : String → String → Bool)
    (maxAgeSeconds idleTimeoutSeconds : Int) (clients : ι → Client) (history : List (Event ι))
    (request : Received) (user : AdminUser) (now : Int) : Prop where
  lineage : ∃ n cookie m r a last, request.parent = some n ∧
    history[n]? = some (.issue cookie) ∧
    Lineage verifyPassword clients history n m r user.id a last ∧
    cookie.session.lastActivityAt = some last ∧
    a ≤ now ∧ now < a + maxAgeSeconds ∧
    a ≤ last ∧ last ≤ now ∧ now < last + idleTimeoutSeconds

/-- **The timeouts are absolute.**  Every request that is admitted hangs below a login of its
administrator that is not older than the maximal age, and the last admitted request on its own
branch is not older than the idle timeout; and no cookie but that of a login has another
administrator or another `authenticated_at` than the one presented for it. -/
theorem session_timeouts (h : Initial s) {labels : List (Label ι)}
    (hrun : fire (step verifyPassword maxAgeSeconds idleTimeoutSeconds clients) s labels =
      some t) :
    (∀ i now u request user,
      step verifyPassword maxAgeSeconds idleTimeoutSeconds clients t (.validate i now) = some u →
      u.phase i = .admitted request user now →
      Admission verifyPassword maxAgeSeconds idleTimeoutSeconds clients t.history request user
        now) ∧
    (∀ n cookie m parent userId, t.history[n]? = some (.issue cookie) → Resumes t.history n m →
      t.history[m]? = some (.issue parent) → cookie.session.adminUserId = some userId →
      parent.session.adminUserId = some userId ∧
        parent.session.authenticatedAt = cookie.session.authenticatedAt) := by
  have hinv := run_timeInv h.timeInv hrun
  refine ⟨fun i now u request user hstep hadmitted => ?_,
    fun n cookie m parent userId hn hresumes hm hid => ?_⟩
  · obtain ⟨hle, presented, user', hloaded, ⟨haccepted, rfl⟩ | rfl⟩ := step_validate hstep
    · cases (Function.update_self ..).symm.trans hadmitted
      obtain ⟨hid, -, a, ha, last, hlast, hcheck⟩ := haccepted
      have hphase := hinv.phases i
      rw [hloaded] at hphase
      rcases hphase.1 with rfl | ⟨n, cookie, hparent, hn, hsession⟩
      · cases hid
      · rw [hsession] at hid ha hlast
        obtain ⟨m, r, a', last', hlineage, ha', hlast', -⟩ := hinv.lineage n cookie hn hid
        obtain rfl : a = a' := Option.some.inj (ha.symm.trans ha')
        obtain rfl : last = last' := Option.some.inj (hlast.symm.trans hlast')
        exact ⟨n, cookie, m, r, a, last, hparent, hn, hlineage, hlast, by omega⟩
    · cases (Function.update_self ..).symm.trans hadmitted
  · obtain ⟨parent', -, hm', hid', ha, -⟩ := hinv.resumed hn hresumes hid
    cases Option.some.inj (hm.symm.trans hm')
    exact ⟨hid', ha⟩

def loginThenPage : Nat → Client
  | 0 => .login "admin" Sample.password
  | _ => .adminPage

/-- Client 0 logs in, and client 1 presents the cookie eight minutes later. -/
theorem session_timeouts_loginThenPage :
    ∃ t u, fire (step Sample.verifyPassword 28800 1800 loginThenPage) Sample.start
        (Sample.loginAt 0 1000 ++ [.present 1 (some 0), .load 1]) = some t ∧
      step Sample.verifyPassword 28800 1800 loginThenPage t (.validate 1 1480) = some u ∧
      ∃ request user, u.phase 1 = .admitted request user 1480 ∧
        Admission Sample.verifyPassword 28800 1800 loginThenPage t.history request user 1480 := by
  have hrun : ((fire (step Sample.verifyPassword 28800 1800 loginThenPage) Sample.start
      (Sample.loginAt 0 1000 ++ [.present 1 (some 0), .load 1])).bind fun t =>
        step Sample.verifyPassword 28800 1800 loginThenPage t (.validate 1 1480)).map
          (fun u => u.phase 1) =
      some (.admitted ⟨⟨some 1, some 1000, some 1480, some 1, some "token"⟩, some 0⟩
        ⟨1, "admin", Sample.passwordHash, 1⟩ 1480) := by decide +kernel
  obtain ⟨u, hu, hphase⟩ := Option.map_eq_some_iff.mp hrun
  obtain ⟨t, ht, hstep⟩ := Option.bind_eq_some_iff.mp hu
  exact ⟨t, u, ht, hstep, _, _, hphase,
    (session_timeouts Sample.start_initial ht).1 1 1480 u _ _ hstep hphase⟩

end EarlyWarning.SessionProtocol
