import CallTimeline.Proofs.Session
import CallTimeline.Service.Api

namespace CallTimeline.Service

def answerOf (outcome : Except Fault Answer) : Answer :=
  outcome.toOption.getD (page 500)

theorem result_guarded_bind (handler : Work Answer) (next : Answer → Answer) (session : Session) :
    (guarded handler >>= fun answer => pure (next answer)).result session =
      (.ok (next (answerOf (handler.outcome session))), (handler.result session).2) := by
  rw [guarded, Work.result_bind, Work.result_tryCatch, Work.outcome]
  obtain ⟨_ | given, after⟩ := handler.result session <;> rfl

theorem result_answer {path : String} {handler : Site → Content → Work Answer}
    (plain : String.ofList (path.toList.takeWhile (· != '?')) = path)
    (route : route? path = some { methods := ["POST"], handler }) (site : Site) (content : Content)
    (session : Session) :
    (answer site { method := "POST", path, content }).result session =
      (.ok (answerOf ((handler site content).outcome session)),
        ((handler site content).result session).2) := by
  rw [answer]
  simp only [plain, route]
  exact result_guarded_bind _ _ session

theorem outcome_answer_resolve (site : Site) (content : Content) (session : Session) :
    (answer site { method := "POST", path := "/api/resolve", content }).outcome session =
      .ok (answerOf ((Service.resolve site content).outcome session)) :=
  congrArg Prod.fst (result_answer (by decide) rfl site content session)

theorem outcome_answer_merge (site : Site) (content : Content) (session : Session) :
    (answer site { method := "POST", path := "/api/merge", content }).outcome session =
      .ok (answerOf ((Service.merge content).outcome session)) :=
  congrArg Prod.fst (@result_answer "/api/merge" (fun _ content => Service.merge content)
    (by decide) rfl site content session)

end CallTimeline.Service
