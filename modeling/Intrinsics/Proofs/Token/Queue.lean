import Intrinsics.Token.Buffer

namespace Intrinsics

-- A buffer beside its plain reading: a source and the list of the tokens still to come. When
-- the source is split, and what the flag of the buffer says, cannot be told from its answers.

-- What can be asked for while a source is read, and the two ways to start over.
inductive TokenDemand where
  | peek
  | next
  | putBack (token : Token)

inductive TokenRequest where
  | demand (demand : TokenDemand)
  | reset
  | resetSource (source : Text)

inductive TokenAnswer where
  | served (token : Option Token)
  | done
  deriving DecidableEq

def serveAll {σ : Type} (answer : TokenRequest → σ → TokenAnswer × σ) :
    List TokenRequest → σ → List TokenAnswer × σ
  | [], state => ([], state)
  | request :: requests, state =>
    let (given, next) := answer request state
    let (later, final) := serveAll answer requests next
    (given :: later, final)

def TokenBuffer.answer : TokenRequest → TokenBuffer → TokenAnswer × TokenBuffer
  | .demand .peek, buffer => (.served buffer.peek.1, buffer.peek.2)
  | .demand .next, buffer => (.served buffer.next.1, buffer.next.2)
  | .demand (.putBack token), buffer => (.done, buffer.putBack token)
  | .reset, buffer => (.done, buffer.reset)
  | .resetSource source, buffer => (.done, buffer.resetSource source)

structure TokenQueue where
  source : Text
  list : List Token

namespace TokenQueue

def ofSource (source : Text) : TokenQueue := ⟨source, tokens source⟩

def answer : TokenRequest → TokenQueue → TokenAnswer × TokenQueue
  | .demand .peek, queue => (.served queue.list.head?, queue)
  | .demand .next, queue => (.served queue.list.head?, ⟨queue.source, queue.list.tail⟩)
  | .demand (.putBack token), queue => (.done, ⟨queue.source, token :: queue.list⟩)
  | .reset, queue => (.done, ofSource queue.source)
  | .resetSource source, _ => (.done, ofSource source)

end TokenQueue

def TokenDemand.taken? : TokenDemand × TokenAnswer → Option Token
  | (.next, .served token) => token
  | _ => none

def TokenDemand.putBack? : TokenDemand → Option Token
  | .putBack token => some token
  | _ => none

def takenTokens (demands : List TokenDemand) (answers : List TokenAnswer) : List Token :=
  (demands.zip answers).filterMap TokenDemand.taken?

def putBackTokens (demands : List TokenDemand) : List Token := demands.filterMap TokenDemand.putBack?

namespace TokenBuffer

def view (buffer : TokenBuffer) : TokenQueue := ⟨buffer.source, buffer.upcoming⟩

@[simp] theorem view_fill (buffer : TokenBuffer) : buffer.fill.view = buffer.view := by
  obtain ⟨source, pending, filled⟩ := buffer
  cases pending with
  | nil => cases filled <;> simp [fill, view, upcoming]
  | cons token pending => rfl

-- Behind a fill the pending tokens are empty only where nothing is left, so the first of them
-- is the first token still to come.
theorem head?_fill (buffer : TokenBuffer) : buffer.fill.pending.head? = buffer.upcoming.head? := by
  obtain ⟨source, pending, filled⟩ := buffer
  cases pending with
  | nil => cases filled <;> simp [fill, upcoming]
  | cons token pending => rfl

theorem view_next (buffer : TokenBuffer) :
    buffer.next.2.view = ⟨buffer.source, buffer.upcoming.tail⟩ := by
  obtain ⟨source, pending, filled⟩ := buffer
  cases pending with
  | nil => cases filled <;> simp [next, fill, view, upcoming]
  | cons token pending => rfl

theorem answer_view (request : TokenRequest) (buffer : TokenBuffer) :
    TokenQueue.answer request buffer.view = ((answer request buffer).1, (answer request buffer).2.view) := by
  cases request with
  | demand demand =>
    cases demand with
    | peek =>
      have head : buffer.peek.1 = buffer.upcoming.head? := head?_fill buffer
      have same : buffer.peek.2.view = buffer.view := view_fill buffer
      simp only [answer, TokenQueue.answer, head, same]
      rfl
    | next =>
      have head : buffer.next.1 = buffer.upcoming.head? := head?_fill buffer
      simp only [answer, TokenQueue.answer, head, view_next]
      rfl
    | putBack token => rfl
  | reset => rfl
  | resetSource source => rfl

theorem serveAll_view (requests : List TokenRequest) (buffer : TokenBuffer) :
    serveAll TokenQueue.answer requests buffer.view =
      ((serveAll answer requests buffer).1, (serveAll answer requests buffer).2.view) := by
  induction requests generalizing buffer with
  | nil => rfl
  | cons request requests ih => simp only [serveAll, answer_view, ih]

theorem take_upcoming (count : Nat) (buffer : TokenBuffer) :
    (buffer.take count).1 = buffer.upcoming.take count ∧
      (buffer.take count).2.upcoming = buffer.upcoming.drop count := by
  induction count generalizing buffer with
  | zero => exact ⟨rfl, rfl⟩
  | succ count ih =>
    have head : buffer.next.1 = buffer.upcoming.head? := head?_fill buffer
    have tail : buffer.next.2.upcoming = buffer.upcoming.tail := congrArg TokenQueue.list (view_next buffer)
    cases asked : buffer.next with
    | mk token behind =>
      rw [asked] at head tail
      cases token with
      | none =>
        have ended : buffer.upcoming = [] := List.head?_eq_none_iff.mp head.symm
        rw [ended] at tail
        simp [take, asked, ended, tail]
      | some token =>
        obtain ⟨later, shape⟩ := List.head?_eq_some_iff.mp head.symm
        obtain ⟨served, left⟩ := ih behind
        rw [shape] at tail
        simp [take, asked, shape, served, left, tail]

theorem drain_upcoming (buffer : TokenBuffer) :
    buffer.drain.1 = buffer.upcoming ∧ buffer.drain.2.upcoming = [] := by
  obtain ⟨served, left⟩ := buffer.take_upcoming (buffer.upcoming.length + 1)
  exact ⟨served.trans (List.take_of_length_le (Nat.le_succ _)),
    left.trans (List.drop_of_length_le (Nat.le_succ _))⟩

theorem next_putBack (token : Token) (buffer : TokenBuffer) :
    (buffer.putBack token).next = (some token, buffer) := rfl

end TokenBuffer

-- Between two resets tokens only change hands: what was taken and what is still to come is
-- what was there and what was put back.
theorem TokenQueue.demands_perm (demands : List TokenDemand) (queue : TokenQueue) :
    (takenTokens demands (serveAll answer (demands.map .demand) queue).1 ++
        (serveAll answer (demands.map .demand) queue).2.list).Perm
      (putBackTokens demands ++ queue.list) := by
  induction demands generalizing queue with
  | nil => exact .refl _
  | cons demand demands ih =>
    cases demand with
    | peek => exact ih queue
    | next =>
      obtain ⟨source, list⟩ := queue
      cases list with
      | nil => exact ih ⟨source, []⟩
      | cons token list => exact ((ih ⟨source, list⟩).cons token).trans List.perm_middle.symm
    | putBack token => exact (ih ⟨queue.source, token :: queue.list⟩).trans List.perm_middle

-- Whatever is asked in whatever order, a buffer answers as the list does that begins with
-- the tokens of its source. A token put back is the next one served and leaves the buffer,
-- its flag included, as it was; and until the next reset no token of the source is served
-- twice or lost.
theorem TokenBuffer.refines_queue (source : Text) (requests : List TokenRequest) :
    (ofSource source).drain.1 = tokens source ∧
    (serveAll answer requests (ofSource source)).1 =
      (serveAll TokenQueue.answer requests ⟨source, tokens source⟩).1 ∧
    (∀ token, ((serveAll answer requests (ofSource source)).2.putBack token).next =
      (some token, (serveAll answer requests (ofSource source)).2)) ∧
    ∀ demands : List TokenDemand,
      (takenTokens demands (serveAll answer (demands.map .demand) (ofSource source)).1 ++
          (serveAll answer (demands.map .demand) (ofSource source)).2.upcoming).Perm
        (putBackTokens demands ++ tokens source) := by
  have run := fun requests => serveAll_view requests (ofSource source)
  refine ⟨(ofSource source).drain_upcoming.1, ?_, fun token => next_putBack token _, ?_⟩
  · exact (congrArg Prod.fst (run requests)).symm
  · intro demands
    have kept := TokenQueue.demands_perm demands (ofSource source).view
    rw [run] at kept
    exact kept

end Intrinsics
