import Iwifunni.Auth.Mailbox
import Iwifunni.Auth.Revocation
import Iwifunni.Auth.Tenant
import Iwifunni.Channels.Email
import Iwifunni.Integration.Sealed
import Iwifunni.Integration.Secrets
import Iwifunni.Integration.Switches
import Iwifunni.Notification.Attempts
import Iwifunni.Notification.Compliance
import Iwifunni.Notification.Listing
import Iwifunni.Notification.PartialUpdate
import Iwifunni.Notification.Preparation
import Iwifunni.Notification.SystemUser
import Iwifunni.RateLimit.Limiter
import Iwifunni.Subscriber.OptOut
import Iwifunni.Templates.Offered
import Iwifunni.Templates.Previewed
import Iwifunni.Web.Delay
import Iwifunni.Web.Encode
import Iwifunni.Web.Graph
import Iwifunni.Web.Issues
import Iwifunni.Web.Linear
import Iwifunni.Web.Owner
import Iwifunni.Web.Reopened
import Iwifunni.Web.Settled
import Iwifunni.Web.Sharing
import Iwifunni.Web.Sms
import Iwifunni.Web.SubscriberForm
import Iwifunni.Web.Undo
import Iwifunni.Webhooks.Isolation
import Iwifunni.Workflow.AllOrNothing
import Iwifunni.Workflow.Apart
import Iwifunni.Workflow.AtMostOnce
import Iwifunni.Workflow.Branching
import Iwifunni.Workflow.Columns
import Iwifunni.Workflow.Constraints
import Iwifunni.Workflow.Course
import Iwifunni.Workflow.LastWrite
import Iwifunni.Workflow.Lifecycle
import Iwifunni.Workflow.Ownership
import Iwifunni.Workflow.Pausing
import Iwifunni.Workflow.Soundness
import Iwifunni.Workflow.Stranding
import Iwifunni.Workflow.TemplateIDs
import Iwifunni.Workflow.Tenants
import Iwifunni.Workflow.Traversal
import Iwifunni.Workflow.Versioning
import Iwifunni.Workflow.WellFormed
