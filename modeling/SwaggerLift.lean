import SwaggerLift.Command.Store
import SwaggerLift.Main
import SwaggerLift.Proofs.Command.Convert
import SwaggerLift.Proofs.Convert.Account
import SwaggerLift.Proofs.Convert.Check
import SwaggerLift.Proofs.Convert.Content
import SwaggerLift.Proofs.Convert.Distinct
import SwaggerLift.Proofs.Convert.Natural
import SwaggerLift.Proofs.Convert.Operation
import SwaggerLift.Proofs.Convert.Reference
import SwaggerLift.Proofs.Convert.Renamed
import SwaggerLift.Proofs.Convert.Shape
import SwaggerLift.Proofs.OpenApi.RoundTrip
import SwaggerLift.Proofs.Convert.Alike
import SwaggerLift.Proofs.Convert.Reordered
import SwaggerLift.Proofs.Format.Agreement
import SwaggerLift.Proofs.Json.Bounded
import SwaggerLift.Proofs.Swagger.Agreement
import SwaggerLift.Proofs.Swagger.Edited
import SwaggerLift.Proofs.Swagger.NormalForm
import SwaggerLift.Proofs.Swagger.Parameter
import SwaggerLift.Proofs.Command.Directory
