import Settlement.Email
import Settlement.Failure
import Settlement.Payment

/-!
# Mails about payments

What a user is told about a payment that was confirmed, or was not.
-/

namespace Settlement

namespace Email

/-- A mail about a payment to its user. -/
def toUser (user : User) (subject content : String) : Email where
  subject := subject
  content := content
  contentType := "text/html"
  userNames := [user.name]
  addresses := [user.email]

end Email

/-- The subject and the content of a mail. -/
structure Notice where
  subject : String
  content : String
  deriving DecidableEq, Inhabited

namespace Notice

def chainName (payment : Payment) : String := Text.toLower payment.chain.displayName

/-- The payment is confirmed. -/
def success (payment : Payment) : Notice where
  subject := s!"{payment.chain.displayName} Payment Confirmed"
  content := s!"Your {chainName payment} payment for {payment.credits.text} credits has been " ++
    "confirmed"

/-- The payment is not confirmed. -/
def failure (payment : Payment) (cause : ConfirmationError) : Notice where
  subject := s!"{payment.chain.displayName} Payment Failed"
  content :=
    match cause with
    | .timeout _ =>
      s!"Your {chainName payment} payment #{payment.number} was not detected on chain in time " ++
        s!"(code {cause.code})"
    | _ =>
      s!"Your {chainName payment} payment #{payment.number} could not be confirmed " ++
        s!"(code {cause.code})"

end Notice

end Settlement
