import PullGate.Proofs.Client.Bodies
import PullGate.Proofs.Client.Conduct
import PullGate.Proofs.Comment.Board
import PullGate.Proofs.Decoration.Confinement

/-! One summary comment on a pull request.  Each analysis that is published searches for the comment
of the one before and puts its own in that place; so a service that stores comments ends up with one
of them, whatever it stores besides. -/

namespace PullGate

/-- A call, and a judgement on the response that makes no other. -/
theorem Run.said_call_bind {α : Type} {call : Call} {judge : Http.Response → Run α}
    (h : ∀ response q, ((judge response).play q).said = []) (q : List Answer) :
    ((Run.call call >>= judge).play q).said = [(call, Answer.next q)] := by
  rw [Run.play_bind, Run.play_call]
  cases Answer.next q with
  | error e => rfl
  | ok response => exact congrArg ((call, Except.ok response) :: ·) (h response q.tail)

theorem Hop.answer_of_heard {hop : Hop} {response : Http.Response} (h : hop.heard = .ok response) :
    hop.answer = .ok response := by
  rw [Hop.answer, h]
  rfl

theorem Http.Response.isSuccess_of_status {r : Http.Response} (h : r.status = 200) :
    r.isSuccess = true := by
  rw [isSuccess, h]
  rfl

/-- The comment on an analysis that was loaded is stored as it is. -/
theorem Analysis.Writable.stored_comment {a : Analysis} (h : a.Writable) :
    Comment.stored a = Comment.text a :=
  Json.joinHalves_of_joined h.comment

/-! ### Where comments lie -/

namespace Repository

variable {r : Repository}

/-- The comments on a pull request, in the addresses of the service. -/
def comments (r : Repository) (id : Int) : Text :=
  r.directory ++ CodePoint.scalar '/' :: ofPullRequest id "comments"

theorem IsPlain.comments_unmarked (h : r.IsPlain) (id : Int) : Url.Unmarked (r.comments id) :=
  (Url.unmarked_of_isPath h.isPath).append
    (Url.unmarked_slash.append (ofPullRequest_unmarked ⟨by decide, by decide⟩))

/-- A comment lies behind the comments, at its number. -/
theorem IsPlain.pathUnder_comment {base : Text} {decodes : Bool} (h : r.IsPlain) (id n : Int) :
    Url.pathUnder base decodes (r.comments id ++ CodePoint.scalar '/' :: Text.ofInt n) =
      Url.pathUnder base decodes (r.comments id) ++ CodePoint.scalar '/' :: Text.ofInt n := by
  have hnumber := Text.isPlainName_ofInt n
  have hmarks := h.comments_unmarked id
  have hlast : r.comments id = r.directory ++ CodePoint.scalar '/' ::
      (Text.ofString "pullrequests" ++ CodePoint.scalar '/' :: Text.ofInt id) ++
        CodePoint.scalar '/' :: Text.ofString "comments" := by
    simp [comments, ofPullRequest]
  rw [hlast] at hmarks ⊢
  exact Url.pathUnder_concat hmarks (by decide) (by decide) (by decide) hnumber.isPath
    (hnumber.not_mem (by decide)) hnumber.not_isDot

end Repository

namespace Client

/-- The path at which a client finds the comments on a pull request. -/
def commentsPath? (c : Client) (r : Repository) (id : Int) : Option Text :=
  (Url.prepare c.idna (c.commentsUrl r id) []).toOption.map Url.path

/-- A client without tokens that can send requests for the comments on a pull request, to this
path. -/
structure Comments (c : Client) (r : Repository) (id : Int) (home : Text) : Prop where
  plain : c.configuration.isOauth2 = false
  headerFits : c.session.HeaderFits
  reachable : Url.Reachable c.idna (c.commentsUrl r id) []
  home : c.commentsPath? r id = some home
  unmarked : Url.Unmarked c.configuration.url
  unscoped : Url.Unscoped (Url.hostUnder c.configuration.url)
  isPlain : r.IsPlain

variable {c : Client} {r : Repository} {id : Int} {home : Text}

theorem commentsUrl_eq (c : Client) (r : Repository) (id : Int) :
    c.commentsUrl r id = Url.under c.configuration.url (r.comments id) := by
  simp [commentsUrl, pullRequestUrl, repositoryUrl, Url.under, Repository.comments,
    Repository.directory, ofPullRequest, Text.ofString]

namespace Comments

/-- Everything of the service is sent to with a path and a query of its own. -/
theorem sent (h : c.Comments r id home) {resource prepared : Text} {pairs : List (Text × Text)}
    (hprepared : Url.prepare c.idna (Url.under c.configuration.url resource) pairs = .ok prepared) :
    Url.path prepared = Url.pathUnder c.configuration.url true resource ∧
      Url.query? prepared = Url.queryUnder true resource pairs := by
  have hreachable := h.reachable
  rw [commentsUrl_eq] at hreachable
  obtain ⟨prepared', hprepared', hsendable, -⟩ := hreachable.under resource pairs
  obtain rfl := Except.ok.inj (hprepared'.symm.trans hprepared)
  obtain ⟨decodes, hdecodes, hall⟩ := Url.exists_pathUnder h.unmarked
  obtain rfl := hdecodes h.unscoped
  exact hall resource pairs prepared' hprepared' hsendable

theorem home_eq (h : c.Comments r id home) :
    home = Url.pathUnder c.configuration.url true (r.comments id) := by
  obtain ⟨prepared, hprepared, -⟩ := h.reachable
  have hhome := h.home
  rw [commentsPath?, hprepared] at hhome
  rw [commentsUrl_eq] at hprepared
  rw [← (h.sent hprepared).1]
  exact (Option.some.inj hhome).symm

end Comments

/-! ### What is called for -/

def findCall (c : Client) (r : Repository) (id : Int) : Call where
  method := "GET"
  url := c.commentsUrl r id
  query := [("q", Comment.query)]
  timeout := c.timeout
  idna := c.idna

def writeCall (c : Client) (r : Repository) (id : Int) (found : Option Text) (raw : Text) :
    Call where
  method := if found.isSome then "PUT" else "POST"
  url := match found with
    | some comment => c.commentsUrl r id ++ "/" ++ comment
    | none => c.commentsUrl r id
  body := some (.object [("content", .object [("raw", .string raw)])])
  timeout := c.timeout
  idna := c.idna

variable {a : Analysis} {q : List Answer} {found : Option Text}

/-- A search makes one call. -/
theorem said_findComment (q : List Answer) :
    ((c.findComment r id).play q).said = [(c.findCall r id, Answer.next q)] := by
  refine Run.said_call_bind (fun response q => ?_) q
  unfold requireSuccess
  rw [Run.play_bind]
  cases rejection? response with
  | some cause => rfl
  | none =>
    simp only [Run.play_pure, Played.andThen_said, List.nil_append]
    cases response.json with
    | error e => rfl
    | ok answer => cases hid : Comment.firstId answer <;> simp only [hid] <;> rfl

theorem rest_findComment (q : List Answer) : ((c.findComment r id).play q).rest = q.tail := by
  have hsaid : ((c.findComment r id).play q).said = _ := said_findComment q
  unfold Run.play at hsaid ⊢
  rw [Dialogue.play_rest, hsaid]
  exact List.drop_one

/-- What is published is searched for first. -/
theorem said_publishComment (q : List Answer) : ∃ more,
    ((c.publishComment r id a).play q).said = (c.findCall r id, Answer.next q) :: more := by
  unfold publishComment
  rw [Run.play_bind]
  cases ((c.findComment r id).play q).value with
  | error e => exact ⟨[], said_findComment q⟩
  | ok found =>
    rw [Played.andThen_said, said_findComment]
    exact ⟨_, rfl⟩

/-- A call that has to succeed, and a message before it. -/
theorem play_required (message : Text) (call : Call) (q : List Answer) :
    ((inform message >>= fun _ => Run.call call >>= requireSuccess).play q).said =
        [(call, Answer.next q)] ∧
      ∀ response, Answer.next q = .ok response → response.isSuccess = true →
        ((inform message >>= fun _ => Run.call call >>= requireSuccess).play q).value = .ok () := by
  rw [Run.play_bind, inform, Run.play_log]
  refine ⟨Run.said_call_bind (fun response q => (quiet_requireSuccess response q).1) q, ?_⟩
  intro response hq hsuccess
  obtain ⟨-, hvalue⟩ := quiet_requireSuccess response q.tail
  obtain ⟨value, hvalue⟩ := hvalue.mpr hsuccess
  rw [Played.andThen_value, Run.play_bind, Run.play_call, hq]
  exact hvalue

/-- A text is published by a search and, if that ends well, by one call more. -/
theorem play_publishComment (h : ((c.findComment r id).play q).value = .ok found) :
    ((c.publishComment r id a).play q).said = [(c.findCall r id, Answer.next q),
        (c.writeCall r id found (Comment.text a), Answer.next q.tail)] ∧
      ∀ response, Answer.next q.tail = .ok response → response.isSuccess = true →
        ((c.publishComment r id a).play q).value = .ok () := by
  unfold publishComment
  rw [Run.play_bind, h]
  simp only [Played.andThen_said, Played.andThen_value, said_findComment, rest_findComment]
  cases found with
  | some comment =>
    obtain ⟨hsaid, hvalue⟩ := play_required
      "Updating pull request summary comment on Bitbucket Cloud"
      (c.writeCall r id (some comment) (Comment.text a)) q.tail
    exact ⟨congrArg (_ :: ·) hsaid, hvalue⟩
  | none =>
    obtain ⟨hsaid, hvalue⟩ := play_required
      "Creating pull request summary comment on Bitbucket Cloud"
      (c.writeCall r id none (Comment.text a)) q.tail
    exact ⟨congrArg (_ :: ·) hsaid, hvalue⟩

/-! ### What the requests want -/

variable {request : Http.Request}

/-- The search quotes the phrase of summary comments. -/
theorem Comments.demand?_find (h : c.Comments r id home)
    (hmakes : (c.findCall r id).Makes request) :
    Comment.demand? home request = some (.search Comment.phrase) := by
  have hurl := hmakes.url
  rw [findCall, commentsUrl_eq] at hurl
  have hpath := (h.sent hurl).1
  have hquery : Url.query? request.url =
      Url.queryUnder true (r.comments id) [("q", Comment.query)] := (h.sent hurl).2
  have hsearch : Url.parameter? "q" request.url = some Comment.query := by
    unfold Url.parameter?
    rw [hquery, Url.queryUnder, Url.query?_unmarked (h.isPlain.comments_unmarked id)]
    decide +kernel
  have hmethod : request.method = "GET" := hmakes.method
  unfold Comment.demand?
  rw [if_pos hmethod, if_pos (hpath.trans h.home_eq.symm), hsearch, Option.bind_some,
    Comment.phrase?_query]
  rfl

/-- The body of what is written holds the text of the comment. -/
theorem raw?_of_makes (hmakes : (c.writeCall r id found (Comment.text a)).Makes request) :
    Comment.raw? request = some (Comment.stored a) := by
  have hwritten : Json.write (.object [("content", .object [("raw", .string (Comment.text a))])]) =
      Json.write (.object [("content", .object [("raw", .string (Comment.stored a))])]) := by
    simp [Json.write, Json.writeMembers, Json.writeString, Comment.stored,
      Json.flatMap_escape_joinHalves]
  have hread := (Comment.faithful_body (Json.joined_joinHalves (Comment.text a)) 988).read_write
  have hbody : request.body = some (Json.write
      (.object [("content", .object [("raw", .string (Comment.stored a))])])) := by
    rw [hmakes.body, ← hwritten]
    rfl
  unfold Comment.raw?
  rw [hbody, Option.bind_eq_bind, Option.bind_some, Comment.stored, hread]
  rfl

theorem Comments.demand?_add (h : c.Comments r id home)
    (hmakes : (c.writeCall r id none (Comment.text a)).Makes request) :
    Comment.demand? home request = some (.add (Comment.stored a)) := by
  have hurl := hmakes.url
  simp only [writeCall, commentsUrl_eq] at hurl
  have hmethod : request.method = "POST" := hmakes.method
  unfold Comment.demand?
  rw [if_neg (by rw [hmethod]; decide), if_pos hmethod,
    if_pos ((h.sent hurl).1.trans h.home_eq.symm), raw?_of_makes hmakes]
  rfl

theorem Comments.demand?_replace {n : Int} (h : c.Comments r id home)
    (hmakes : (c.writeCall r id (some (Text.ofInt n)) (Comment.text a)).Makes request) :
    Comment.demand? home request = some (.replace (Text.ofInt n) (Comment.stored a)) := by
  have hurl := hmakes.url
  have hcomment : Url.under c.configuration.url (r.comments id) ++ Text.ofString "/" ++
      Text.ofInt n = Url.under c.configuration.url
        (r.comments id ++ CodePoint.scalar '/' :: Text.ofInt n) := by
    simp [Url.under, Text.ofString]
  simp only [writeCall, commentsUrl_eq, hcomment] at hurl
  have hpath : Url.path request.url = home ++ Text.ofString "/" ++ Text.ofInt n := by
    rw [(h.sent hurl).1, h.isPlain.pathUnder_comment, ← h.home_eq]
    simp [Text.ofString]
  have hmethod : request.method = "PUT" := hmakes.method
  unfold Comment.demand?
  rw [if_neg (by rw [hmethod]; decide), if_neg (by rw [hmethod]; decide), if_pos hmethod, hpath,
    Text.dropPrefix?_append, raw?_of_makes hmakes]
  rfl

/-! ### Publishing -/

open Comment (Board)

variable {board board' : Board} {H : List Hop} {later : List (Call × Answer)}

/-- What is written goes to the first comment with the phrase, and is added if there is none. -/
theorem Comments.written {lists : Http.Response → List Int → Bool} {hop : Hop}
    (h : c.Comments r id home)
    (hmakes : (c.writeCall r id ((board.containing Comment.phrase).ids.head?.map Text.ofInt)
      (Comment.text a)).Makes hop.request) (hstep : Board.Step lists home board hop board') :
    Board.Published board (Comment.stored a) board' ∧
      ∃ response, hop.heard = .ok response ∧ response.isSuccess = true := by
  cases hfound : board.containing Comment.phrase with
  | nil =>
    rw [hfound] at hmakes
    obtain ⟨n, response, rfl, hfresh, hheard, hsuccess⟩ := hstep.of_add (h.demand?_add hmakes)
    exact ⟨.added hfound hfresh, response, hheard, hsuccess⟩
  | cons post posts =>
    rw [hfound] at hmakes
    have hpost : post ∈ board.containing Comment.phrase := hfound ▸ .head _
    have hid : post.id ∈ board.ids := List.mem_map_of_mem (List.mem_filter.mp hpost).1
    obtain ⟨rfl, hreply⟩ := hstep.of_replace (h.demand?_replace hmakes) hid
    exact ⟨.replaced hfound, hreply⟩

/-- One analysis is published, and succeeds, if the service stores comments. -/
theorem Comments.published (h : c.Comments r id home)
    (hanswered : Answered (((c.publishComment r id a).play q).said ++ later) H)
    (hserves : Board.Serves Comment.isRead home board H board') :
    ((c.publishComment r id a).play q).value = .ok () ∧ ∃ between H',
      Board.Published board (Comment.stored a) between ∧ Answered later H' ∧
        Board.Serves Comment.isRead home between H' board' := by
  obtain ⟨more, hmore⟩ : ∃ more, ((c.publishComment r id a).play q).said =
      (c.findCall r id, Answer.next q) :: more := said_publishComment q
  rw [hmore] at hanswered
  obtain ⟨search, H₁, ⟨hanswer, hmakes⟩, hlater, rfl⟩ := List.forall₂_cons_left_iff.mp hanswered
  obtain ⟨searched, hstep, hrest⟩ := hserves.cons_inv
  obtain ⟨rfl, response, hheard, hstatus, hlists⟩ := hstep.of_search (h.demand?_find hmakes)
  have hnext : Answer.next q = .ok response := hanswer.trans (Hop.answer_of_heard hheard)
  have hvalue : ((c.findComment r id).play q).value = _ := play_findComment_of_listed hnext
    (Http.Response.isSuccess_of_status hstatus) (Comment.listed?_of_ids? (of_decide_eq_true hlists))
  obtain ⟨hsaid, hok⟩ := play_publishComment (a := a) hvalue
  -- the search went well, so it is followed by a write
  rw [hmore] at hsaid
  obtain rfl := (List.cons.inj hsaid).2
  obtain ⟨write, H₂, ⟨hanswer', hmakes'⟩, hlater', rfl⟩ := List.forall₂_cons_left_iff.mp hlater
  obtain ⟨written, hstep', hrest'⟩ := hrest.cons_inv
  obtain ⟨hpublished, response', hheard', hsuccess⟩ := h.written hmakes' hstep'
  exact ⟨hok response' (hanswer'.trans (Hop.answer_of_heard hheard')) hsuccess, written,
    H₂, hpublished, hlater', hrest'⟩

/-- Analyses are published one after the other, and all of them succeed. -/
theorem Comments.publishes (h : c.Comments r id home) {analyses : List Analysis}
    (hanswered : Answered ((c.operate (analyses.map (.publishComment r id))).play q).said H)
    (hserves : Board.Serves Comment.isRead home board H board') :
    ((c.operate (analyses.map (.publishComment r id))).play q).value =
        analyses.map (fun _ => .ok ()) ∧
      Board.Publishes board (analyses.map Comment.stored) board' := by
  induction analyses generalizing q H board with
  | nil =>
    cases hanswered
    cases hserves
    exact ⟨rfl, .nil⟩
  | cons a analyses ih =>
    rw [List.map_cons, operate, Dialogue.play_bind, Dialogue.play_bind] at hanswered ⊢
    simp only [Played.andThen_said, Played.andThen_value, Dialogue.pure_def, Dialogue.play_done,
      List.append_nil] at hanswered ⊢
    obtain ⟨hvalue, between, H', hpublished, hlater, hrest⟩ := h.published hanswered hserves
    obtain ⟨hvalues, hpublishes⟩ := ih hlater hrest
    rw [hvalues]
    exact ⟨congrArg (· :: _) hvalue, .cons hpublished hpublishes⟩

/-- Whatever a service stores besides, it ends up with one summary comment: that of the analysis
published last, if there was none before. -/
theorem gainsOne_publishComment (h : c.Comments r id home) {analyses : List Analysis}
    (hsome : analyses ≠ []) (hnone : board.containing Comment.phrase = []) (w : Wire)
    (hserves : Board.Serves Comment.isRead home board
      (c.operationTraffic (analyses.map (.publishComment r id)) w) board') :
    board.GainsOne board' (Comment.stored (analyses.getLast hsome)) ∧
      (c.carryOut (analyses.map (.publishComment r id)) w).1 = analyses.map fun _ => .ok () := by
  have hable : (c.operate (analyses.map (.publishComment r id))).Within Call.Able := by
    intro q x hx
    have hown := c.within_operate _ q x hx
    obtain ⟨resource, hresource⟩ := hown.url
    have hreachable := h.reachable
    rw [commentsUrl_eq] at hreachable
    refine ⟨?_, hown.standard⟩
    rw [hresource, hown.idna]
    exact hreachable.under resource x.1.query
  obtain ⟨hvalue, H, hmoves, hanswered⟩ :=
    Session.carryOut_answered (bearer_of_plain h.plain) h.headerFits _ hable w
  rw [c.operationTraffic_eq hmoves] at hserves
  obtain ⟨hvalues, hpublishes⟩ := h.publishes hanswered hserves
  refine ⟨?_, hvalue.trans hvalues⟩
  have hraws : ∀ raw ∈ analyses.map Comment.stored,
      Text.containsText Comment.phrase raw = true := by
    intro raw hraw
    obtain ⟨a, -, rfl⟩ := List.mem_map.mp hraw
    exact Comment.containsText_stored a
  have hgains := hpublishes.gainsOne hnone hraws (by simpa using hsome)
  rwa [List.getLast_map] at hgains

end Client

/-! ### Samples -/

namespace Decoration.Sample

/-- The analysis again, with a quality gate that failed. -/
def failing : Analysis := { analysis with gate := .error }

/-- The analysis with a dashboard whose address holds a surrogate pair in two halves. -/
def halved : Analysis := { analysis with dashboardUrl := [.surrogate 0x3D, .surrogate 0x600] }

/-- A client without tokens at an address. -/
def clientAt (url : Text) : Client :=
  { client with configuration := { client.configuration with url } }

/-- The first number that has more digits than are read. -/
def large : Int := (10 ^ Json.digitLimit : Nat)

def listed (ids : List Int) : Http.Reply :=
  .ok ⟨200, "OK", some "utf-8", Text.utf8 (Json.write (Comment.listing ids)), {}⟩

def comments : Text := "/2.0/repositories/project/repository/pullrequests/7/comments"

/-- Searches that are answered with these listings, and writes that are successful. -/
def listings (found : List (List Int)) : Wire where
  replies := found.flatMap fun ids => [listed ids, .ok (response 201)]

/-- A service that lists its comments in writing has none at first and is left with these. -/
def Leaves (c : Client) (analyses : List Analysis) (w : Wire) (board : Comment.Board) : Prop :=
  Comment.Board.Serves Comment.isWritten ((c.commentsPath? c.configuration.target 7).getD []) []
    (c.operationTraffic (analyses.map (.publishComment c.configuration.target 7)) w) board

theorem leaves_of_serve? {c : Client} {analyses : List Analysis} {w : Wire} (first : Int)
    {board : Comment.Board}
    (h : Comment.Board.serve? Comment.isWritten
      ((c.commentsPath? c.configuration.target 7).getD []) first []
      (c.operationTraffic (analyses.map (.publishComment c.configuration.target 7)) w) =
        some board) : Leaves c analyses w board :=
  Comment.Board.serves_of_serve? h

theorem isComments : client.Comments client.configuration.target 7 comments where
  plain := rfl
  headerFits := headerFits
  reachable := by
    have hreport := (Client.able_call preparable sendable .clearReport).reachable
    rw [Errand.url_eq] at hreport
    rw [Client.commentsUrl_eq]
    exact hreport.under _ _
  home := by decide +kernel
  unmarked := ⟨by decide, by decide⟩
  unscoped := .inl (by decide +kernel)
  isPlain := isPlain

end Decoration.Sample

namespace Client

open Comment (Board)
open Decoration Sample

/-- A comment that was there stays, and the second analysis takes the place of the first. -/
theorem gainsOne_publishComment_sample :
    Board.GainsOne [⟨1, "Looks good to me"⟩]
        [⟨1, "Looks good to me"⟩, ⟨2, Comment.stored failing⟩] (Comment.stored failing) ∧
      (client.carryOut ([analysis, failing].map
        (.publishComment client.configuration.target 7)) (listings [[], [2]])).1 =
          [.ok (), .ok ()] := by
  have hserves : Board.Serves Comment.isRead comments [⟨1, "Looks good to me"⟩]
      (client.operationTraffic ([analysis, failing].map
        (.publishComment client.configuration.target 7)) (listings [[], [2]]))
      [⟨1, "Looks good to me"⟩, ⟨2, Comment.stored failing⟩] :=
    Board.serves_of_serve? (show Board.serve? _ _ 1 _ _ = _ by decide +kernel)
  have hnone : Board.containing [⟨1, "Looks good to me"⟩] Comment.phrase = [] := by decide +kernel
  have hsome : [analysis, failing] ≠ [] := List.cons_ne_nil _ _
  obtain ⟨hgains, hresults⟩ := gainsOne_publishComment isComments hsome hnone _ hserves
  exact ⟨hgains, hresults⟩

set_option maxRecDepth 1000 in
/-- The first analysis is found again by a number that has too many digits to be read. -/
theorem leaves_large : Leaves client [analysis, failing] (listings [[], [large]])
    [⟨large, Comment.text analysis⟩] :=
  leaves_of_serve? large (by decide +kernel)

/-- A number that cannot be read leaves the first analysis; without an address, or with a token that
is no header, nothing is left; with a query in the address of the service no comment is put in the
place of another, and with a zone in its host none is found; and halves of a pair are joined. -/
theorem not_gainsOne_publishComment :
    (Leaves client [analysis, failing] (listings [[], [large]])
        [⟨large, Comment.text analysis⟩] ∧
      ¬Board.GainsOne [] [⟨large, Comment.text analysis⟩] (Comment.text failing)) ∧
    (Leaves (clientAt "api.bitbucket.org") [analysis] (listings [[]]) [] ∧
      Leaves { client with configuration := { client.configuration with token := "basic\ntoken" } }
        [analysis] (listings [[]]) [] ∧
      ¬Board.GainsOne [] [] (Comment.text analysis)) ∧
    (Leaves (clientAt "https://api.bitbucket.org?version=2") [analysis, failing]
        (listings [[], [1]]) [⟨1, Comment.text analysis⟩] ∧
      ¬Board.GainsOne [] [⟨1, Comment.text analysis⟩] (Comment.text failing)) ∧
    (Leaves (clientAt "http://[fe80::1%25eth0]") [analysis, failing] (listings [[], []])
        [⟨1, Comment.text analysis⟩, ⟨2, Comment.text failing⟩] ∧
      ¬Board.GainsOne [] [⟨1, Comment.text analysis⟩, ⟨2, Comment.text failing⟩]
        (Comment.text failing)) ∧
    Leaves client [halved] (listings [[]]) [⟨1, Comment.stored halved⟩] ∧
      ¬Board.GainsOne [] [⟨1, Comment.stored halved⟩] (Comment.text halved) := by
  refine ⟨⟨leaves_large, ?_⟩, ⟨?_, ?_, ?_⟩, ⟨?_, ?_⟩, ⟨?_, ?_⟩, ?_, ?_⟩
  · exact fun h => absurd h.raw_eq (by decide +kernel)
  · exact leaves_of_serve? 1 (by decide +kernel)
  · exact leaves_of_serve? 1 (by decide +kernel)
  · exact fun h => absurd h.raw_eq (by decide +kernel)
  · exact leaves_of_serve? 1 (by decide +kernel)
  · exact fun h => absurd h.raw_eq (by decide +kernel)
  · exact leaves_of_serve? 1 (by decide +kernel)
  · exact fun h => absurd h.raw_eq (by decide +kernel)
  · exact leaves_of_serve? 1 (by decide +kernel)
  · exact fun h => absurd h.raw_eq (by decide +kernel)

end Client

end PullGate
