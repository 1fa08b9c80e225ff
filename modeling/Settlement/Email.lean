import Settlement.Json.Record

/-!
# Emails

A mail to be sent by the mail sender. The list of addresses is left out of the message when it is
empty.
-/

namespace Settlement

structure Email where
  subject : String
  content : String
  contentType : String
  userNames : List String
  addresses : List String
  deriving DecidableEq, Inhabited

namespace Email

open Json

def record : Record where
  name := "EmailSend"
  fields :=
    [.of "subject" Doc.readString, .of "content" Doc.readString,
      .of "content_type" Doc.readString, .of "user_names" (Doc.readList Doc.readString),
      .of "emails" (Doc.readList Doc.readString) .defaulted]

def readJson (source : Source) (doc : Doc) : Except Fault Email := do
  let docs ← record.docs source doc
  return {
    subject := ← docs.required "subject" Doc.readString
    content := ← docs.required "content" Doc.readString
    contentType := ← docs.required "content_type" Doc.readString
    userNames := ← docs.required "user_names" (Doc.readList Doc.readString)
    addresses := ← docs.withDefault "emails" (Doc.readList Doc.readString) [] }

def strings (texts : List String) : Value := .array (texts.map .string)

def json (e : Email) : Value :=
  .object ([("subject", .string e.subject), ("content", .string e.content),
    ("content_type", .string e.contentType), ("user_names", strings e.userNames)] ++
    if e.addresses.isEmpty then [] else [("emails", strings e.addresses)])

end Email

end Settlement
