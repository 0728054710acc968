import Switchboard.Main
import Switchboard.Server.Network
import Switchboard.Workflow.Handler
import Switchboard.Workflow.Hooks
import Switchboard.Workflow.Resolvers
import Switchboard.Proofs.BodyIntake
import Switchboard.Proofs.Consistency
import Switchboard.Proofs.CookieFields
import Switchboard.Proofs.Declaring
import Switchboard.Proofs.Echo
import Switchboard.Proofs.ErrorResponse
import Switchboard.Proofs.FirstFailure
import Switchboard.Proofs.Forms
import Switchboard.Proofs.HeaderFields
import Switchboard.Proofs.Lifetime
import Switchboard.Proofs.Members
import Switchboard.Proofs.Merging
import Switchboard.Proofs.Mounting
import Switchboard.Proofs.Refusal
import Switchboard.Proofs.Registration
import Switchboard.Proofs.Rendered
import Switchboard.Proofs.ReplyJson
import Switchboard.Proofs.Reporting
import Switchboard.Proofs.Response
import Switchboard.Proofs.ReturnedCookies
import Switchboard.Proofs.SecurityHeaders
import Switchboard.Proofs.Serial
import Switchboard.Proofs.Settlement
import Switchboard.Proofs.Shapes
import Switchboard.Proofs.Undisturbed
import Switchboard.Proofs.Written
