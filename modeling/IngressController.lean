import IngressController.Validation.DirectiveInjection
import IngressController.Validation.Ingress
import IngressController.Validation.BufferRules
import IngressController.Validation.ClosedText
import IngressController.Annotations.Times
import IngressController.Annotations.WallarmDirectives
import IngressController.Configuration.MinionPaths
import IngressController.Configuration.RebuildOrder
import IngressController.Configuration.RenderedChanges
import IngressController.Configuration.ListenerWarnings
import IngressController.Nginx.ExactIsolation
import IngressController.AppProtect.DosChanges
import IngressController.Controller.WeightAgreement
import IngressController.Controller.Endpoints
import IngressController.Configurator.MultipleUpdates
import IngressController.Generator.LocationKeys
