import StepOAuth.Go.Bytes
import StepOAuth.Go.Strconv
import StepOAuth.Go.Escape
import StepOAuth.Go.Values
import StepOAuth.Go.Url
import StepOAuth.Go.Host
import StepOAuth.Go.UrlRoundTrip
import StepOAuth.Go.Net
import StepOAuth.Go.Path
import StepOAuth.Go.PathClean
import StepOAuth.Go.Json
import StepOAuth.Command.Types
import StepOAuth.Command.Auth
import StepOAuth.Command.Handler
import StepOAuth.Command.Listen
import StepOAuth.Command.Session
import StepOAuth.Command.Loopback
import StepOAuth.Command.LoopbackOutcome
import StepOAuth.Command.Flows
import StepOAuth.Command.AuthUrl
import StepOAuth.Command.Disco
